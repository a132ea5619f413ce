import RaftLog.Runtime.Writing
import RaftLog.SegmentLog.Crashes

set_option autoImplicit false

namespace RaftLog.Restarts

open Lib Replication Drive

-- The directory of a host, with a process that serves it or without.
inductive Process where
  | stopped (dir : SegmentLog.Dir)
  | serving (service : Service)

-- A host, and the commands that its earlier processes have answered Ok, newest first.
structure Host where
  process : Process
  earlier : List Bytes

inductive Action where
  | start (state : State)
  | write (message : Message)
  | stop
  | kill
deriving DecidableEq, Repr

-- The commands answered Ok by any process, newest first.
def Host.accepted (host : Host) : List Bytes :=
  match host.process with
  | .stopped _ => host.earlier
  | .serving service => service.accepted ++ host.earlier

section Step

variable (cfg : SegmentLog.Config) (codec : Codec) (id : NodeId) (voters : List NodeId)

-- Runtime::new on the log that the directory holds, with an FSM that has been given nothing.
def launch (dir : SegmentLog.Dir) (state : State) : Option Service :=
  match SegmentLog.Log.new cfg dir with
  | (_, .error _) => none
  | (writes, .ok log) =>
      match log.nextOffset with
      | .error _ => none
      | .ok next => some ⟨newRuntime id voters next state .leader ⟨dir.applyAll writes, log, []⟩, []⟩

-- Runtime::run lets go of the runtime when it is cancelled, and nobody closes the log.
def step (host : Host) : Action → Option Host
  | .start state =>
      match host.process with
      | .serving _ => none
      | .stopped dir => (launch cfg id voters dir state).map fun service => { host with process := .serving service }
  | .write message =>
      match host.process with
      | .stopped _ => none
      | .serving service => (serve cfg codec service message).map fun next => { host with process := .serving next }
  | .stop =>
      match host.process with
      | .stopped _ => none
      | .serving service => some
          ⟨.stopped (service.runtime.world.dir.applyAll service.runtime.world.log.dropWrites), service.accepted ++ host.earlier⟩
  | .kill =>
      match host.process with
      | .stopped _ => none
      | .serving service => some ⟨.stopped service.runtime.world.dir, service.accepted ++ host.earlier⟩

def machine : Machine Host Action := ⟨fun host => host = ⟨.stopped SegmentLog.emptyDir, []⟩, step cfg codec id voters⟩

-- A process is killed between two messages only where every append has been synced, and
-- the active segment has no free slot or as few records as recovery can count.
def permits (host : Host) : Action → Bool
  | .write _ =>
      match host.process with
      | .stopped _ => true
      | .serving service => service.runtime.world.log.roomFor (SegmentLog.recoverableLimit cfg) &&
          decide (host.accepted.length + 1 < u64Max)
  | .kill => cfg.syncWrites
  | _ => true

def Holds (bytes command : Bytes) : Prop := ∃ term, codec.decode bytes = .ok ⟨term, command⟩

def terms : SegmentLog.Terms := ⟨SegmentLog.recoverableLimit cfg, true⟩

-- How many entries the process has applied: none, or all there are.
def caughtUp (earlier : List Bytes) (service : Service) : Nat :=
  if service.accepted = [] then 0 else (service.accepted ++ earlier).length

-- A process between two messages, over the log of all processes so far.
structure Resumed (earlier : List Bytes) (service : Service) (data : List Bytes) : Prop where
  alone : Alone service.runtime.raft
  quiet : service.runtime.operations = ∅
  leader : service.runtime.raft.role = .leader
  stands : SegmentLog.Stands cfg (terms cfg) service.runtime.world.dir (some service.runtime.world.log) data
  decodes : List.Forall₂ (Holds codec) data (service.accepted ++ earlier).reverse
  answered : service.runtime.replies.map Prod.fst = service.handled.map Message.reply
  given : service.runtime.world.given = ((service.accepted ++ earlier).reverse.take (caughtUp earlier service)).reverse
  applied : service.runtime.raft.lastApplied = caughtUp earlier service
  committed : service.runtime.raft.commitIndex = caughtUp earlier service
  last : service.runtime.raft.lastLogIndex = caughtUp earlier service

end Step

section Batch

variable (cfg : SegmentLog.Config) (codec : Codec) (first : cfg.initalOffset = 1)

include first

-- The loop of ApplyCommitted over entries that the log has.
theorem batch_applies (data commands : List Bytes) (decodes : List.Forall₂ (Holds codec) data commands) (count : Nat) :
    ∀ (start : Nat) (runtime : Runtime Backing), start + count ≤ data.length →
      SegmentLog.Stands cfg (terms cfg) runtime.world.dir (some runtime.world.log) data →
      ∃ last, applyEntries (backed cfg codec) runtime (List.range' (start + 1) count) = .ok (last, .ok ()) ∧
        SegmentLog.Stands cfg (terms cfg) last.world.dir (some last.world.log) data ∧
        last.world.given = ((commands.drop start).take count).reverse ++ runtime.world.given := by
  induction count with
  | zero => exact fun start runtime _ stands => ⟨runtime, rfl, stands, rfl⟩
  | succ count ih =>
      intro start runtime within stands
      have bound : start < data.length := by omega
      have there : start < commands.length := decodes.length_eq ▸ bound
      have read := SegmentLog.stands_whole cfg (terms cfg) _ _ data stands rfl (SegmentLog.recoverable_limit_narrow cfg) start _ []
        (List.getElem?_eq_getElem bound)
      rw [first, Nat.add_comm] at read
      obtain ⟨term, decoded⟩ := decodes.get bound there
      rw [List.get_eq_getElem, List.get_eq_getElem] at decoded
      have kept := SegmentLog.stands_read cfg (terms cfg) _ _ data stands (start + 1) []
      obtain ⟨last, ran, after, given⟩ := ih (start + 1) { runtime with
        world := { runtime.world.afterRead (start + 1) [] with given := commands[start] :: runtime.world.given }
        buf := data[start], applied := (start + 1) :: runtime.applied } (by omega) kept
      refine ⟨last, ?_, after, ?_⟩
      · rw [List.range'_succ, applyEntries, applyEntry, backed_read cfg codec runtime.world (start + 1) [] _ read]
        simp only [backed, decoded]
        exact ran
      · rw [given, List.drop_eq_getElem_cons there, List.take_succ_cons, List.reverse_cons, List.append_assoc]
        rfl

end Batch

section Write

variable (cfg : SegmentLog.Config) (codec : Codec) (earlier : List Bytes) (service : Service) (message : Message)
  (data : List Bytes) (resumed : Resumed cfg codec earlier service data)

theorem caught_up_within : caughtUp earlier service ≤ (service.accepted ++ earlier).length := by
  unfold caughtUp
  split
  · exact Nat.zero_le _
  · exact le_rfl

include resumed

theorem resumed_length : data.length = (service.accepted ++ earlier).length := by
  rw [resumed.decodes.length_eq, List.length_reverse]

-- A write that is refused leaves the log, the positions and the FSM as they were.
theorem resumed_refused (later : Backing) (buf : Bytes) (failure : Failure) (given : later.given = service.runtime.world.given)
    (stands : SegmentLog.Stands cfg (terms cfg) later.dir (some later.log) data) :
    Resumed cfg codec earlier ⟨service.runtime.answered service.runtime.raft later buf service.runtime.applied message.reply
      (.error failure), message :: service.handled⟩ data := by
  have accepted := accepted_error service.runtime (service.runtime.answered service.runtime.raft later buf
    service.runtime.applied message.reply (.error failure)) service.handled message failure rfl
  have position : ∀ after : Service, after.accepted = service.accepted → caughtUp earlier after = caughtUp earlier service := by
    intro after same
    rw [caughtUp, caughtUp, same]
  constructor
  case alone => exact resumed.alone
  case quiet => rfl
  case leader => exact resumed.leader
  case stands => exact stands
  case decodes => rw [accepted]; exact resumed.decodes
  case answered => exact congrArg (message.reply :: ·) resumed.answered
  case given => rw [position _ accepted, accepted]; exact given.trans resumed.given
  case applied => exact resumed.applied.trans (position _ accepted).symm
  case committed => exact resumed.committed.trans (position _ accepted).symm
  case last => exact resumed.last.trans (position _ accepted).symm

-- The batch goes from the first entry that this process has not applied to the new one.
theorem unapplied_batch (typed : data.length + 1 < u64Max) : unapplied service.runtime.raft (data.length + 1) =
    List.range' (caughtUp earlier service + 1) (data.length + 1 - caughtUp earlier service) := by
  have within := caught_up_within earlier service
  rw [← resumed_length cfg codec earlier service data resumed] at within
  have start : saturatingAdd service.runtime.raft.lastApplied 1 = caughtUp earlier service + 1 := by
    rw [resumed.applied]
    exact Nat.min_eq_left (by omega)
  rw [unapplied, start, Nat.add_sub_add_right]

theorem resumed_written (last : Runtime Backing) (bytes : Bytes) (entry : LocalEntry)
    (index : entry.index = data.length + 1) (command : codec.decode bytes = .ok (entryOf service.runtime message))
    (stands : SegmentLog.Stands cfg (terms cfg) last.world.dir (some last.world.log) (data ++ [bytes]))
    (given : last.world.given = message.data :: (service.accepted ++ earlier)) :
    Resumed cfg codec earlier ⟨service.runtime.answered (appliedRaft service.runtime.raft entry (.ok ())) last.world last.buf
      last.applied message.reply (.ok ()), message :: service.handled⟩ (data ++ [bytes]) := by
  have accepted := accepted_ok service.runtime (service.runtime.answered (appliedRaft service.runtime.raft entry (.ok ()))
    last.world last.buf last.applied message.reply (.ok ())) service.handled message rfl
  have all : ∀ after : Service, after.accepted = message.data :: service.accepted →
      caughtUp earlier after = data.length + 1 := by
    intro after same
    rw [caughtUp, same, if_neg (List.cons_ne_nil _ _), List.cons_append, List.length_cons,
      ← resumed_length cfg codec earlier service data resumed]
  have alone := committed_alone service.runtime.raft entry resumed.alone
  constructor
  case alone => exact ⟨alone.voters, alone.member, alone.learners⟩
  case quiet => rfl
  case leader => exact resumed.leader
  case stands => exact stands
  case decodes =>
    rw [accepted, List.cons_append, List.reverse_cons]
    exact List.rel_append resumed.decodes (.cons ⟨_, command⟩ .nil)
  case answered => exact congrArg (message.reply :: ·) resumed.answered
  case given =>
    have whole : data.length + 1 = ((message.data :: service.accepted) ++ earlier).reverse.length := by
      rw [List.length_reverse, List.cons_append, List.length_cons, ← resumed_length cfg codec earlier service data resumed]
    rw [all _ accepted, accepted, whole, List.take_length, List.reverse_reverse]
    exact given
  case applied => exact index.trans (all _ accepted).symm
  case committed => exact index.trans (all _ accepted).symm
  case last => exact index.trans (all _ accepted).symm

variable (first : cfg.initalOffset = 1)

include first

-- The first write that is accepted has the whole log applied, a later one its own entry.
theorem resumed_write (room : service.runtime.world.log.roomFor (terms cfg).limit = true)
    (storable : storable codec service.runtime message = true) (typed : (service.accepted ++ earlier).length + 1 < u64Max) :
    ∃ after later, WriteStep (backed cfg codec) service.runtime message (.ok after) ∧
      Resumed cfg codec earlier ⟨after, message :: service.handled⟩ later := by
  have length := resumed_length cfg codec earlier service data resumed
  rw [← length] at typed
  cases encodes : codec.encode (entryOf service.runtime message) with
  | error error =>
      exact ⟨_, data, .unencoded resumed.leader _ error (congrArg _ encodes),
        resumed_refused cfg codec earlier service message data resumed _ _ _ rfl resumed.stands⟩
  | ok bytes =>
      rw [Drive.storable, encodes] at storable
      have offset : cfg.initalOffset + data.length = data.length + 1 := by rw [first, Nat.add_comm]
      obtain ⟨later, answer, appended, given, ⟨rfl, added⟩ | ⟨⟨error, rfl⟩, kept⟩⟩ :=
        backed_append cfg codec _ _ data resumed.stands bytes storable room (offset ▸ typed)
      · have decoded := codec.inverse _ _ encodes
        have decodes : List.Forall₂ (Holds codec) (data ++ [bytes]) ((service.accepted ++ earlier).reverse ++ [message.data]) :=
          List.rel_append resumed.decodes (.cons ⟨_, decoded⟩ .nil)
        have within := caught_up_within earlier service
        rw [offset] at appended
        obtain ⟨last, ran, stands, told⟩ := batch_applies cfg codec first _ _ decodes
          (data.length + 1 - caughtUp earlier service) (caughtUp earlier service)
          (service.runtime.committing message (data.length + 1) later bytes)
          (by rw [List.length_append, List.length_singleton]; omega) added
        rw [← unapplied_batch cfg codec earlier service data resumed typed] at ran
        refine ⟨_, data ++ [bytes], .applies resumed.leader _ later bytes _ last _ (congrArg _ encodes) appended typed ran, ?_⟩
        apply resumed_written cfg codec earlier service message data resumed last bytes _ rfl decoded stands
        have all : ((service.accepted ++ earlier).reverse ++ [message.data]).length = data.length + 1 := by
          rw [List.length_append, List.length_reverse, List.length_singleton, length]
        have before : (service.runtime.committing message (data.length + 1) later bytes).world.given =
            (((service.accepted ++ earlier).reverse ++ [message.data]).take (caughtUp earlier service)).reverse := by
          rw [List.take_append_of_le_length (by rw [List.length_reverse]; exact within)]
          exact given.trans resumed.given
        rw [told, before, List.take_of_length_le (by rw [List.length_drop, all]), ← List.reverse_append, List.take_append_drop]
        simp
      · exact ⟨_, data, .unappended resumed.leader _ later bytes error (congrArg _ encodes) appended,
          resumed_refused cfg codec earlier service message data resumed _ _ _ given kept⟩

end Write

section Hosts

variable (cfg : SegmentLog.Config) (codec : Codec) (id : NodeId) (voters : List NodeId)

-- A directory between two processes has every accepted command, each in a record of its own.
def Sound (host : Host) : Prop :=
  match host.process with
  | .stopped dir => ∃ data, SegmentLog.Stands cfg (terms cfg) dir none data ∧ List.Forall₂ (Holds codec) data host.earlier.reverse
  | .serving service => ∃ data, Resumed cfg codec host.earlier service data

theorem launch_opened (dir : SegmentLog.Dir) (state : State) (service : Service)
    (launched : launch cfg id voters dir state = some service) :
    ∃ log next, (SegmentLog.Log.new cfg dir).2 = .ok log ∧ log.nextOffset = .ok next ∧
      service = ⟨newRuntime id voters next state .leader ⟨dir.applyAll (SegmentLog.Log.new cfg dir).1, log, []⟩, []⟩ := by
  unfold launch at launched
  split at launched
  · cases launched
  · rename_i writes log opened
    split at launched
    · cases launched
    · rename_i next offset
      cases launched
      exact ⟨log, next, by rw [opened], offset, by rw [opened]⟩

-- The log is all that a process hands to the next one: no entry counts as applied or committed.
theorem launch_resumed (only : ∀ voter, voter ∈ voters ↔ voter = id) (dir : SegmentLog.Dir) (state : State) (earlier data : List Bytes)
    (service : Service) (stands : SegmentLog.Stands cfg (terms cfg) dir none data)
    (decodes : List.Forall₂ (Holds codec) data earlier.reverse) (launched : launch cfg id voters dir state = some service) :
    Resumed cfg codec earlier service data := by
  obtain ⟨log, next, opened, _, rfl⟩ := launch_opened cfg id voters dir state service launched
  constructor
  case alone => exact new_alone id voters next state .leader only
  case quiet => rfl
  case leader => rfl
  case stands => exact SegmentLog.stands_start cfg (terms cfg) dir data stands log opened
  case decodes => exact decodes
  case answered => rfl
  case given => rfl
  case applied => rfl
  case committed => rfl
  case last => rfl

-- A directory between two processes opens again.
theorem launch_some (dir : SegmentLog.Dir) (state : State) (data : List Bytes)
    (stands : SegmentLog.Stands cfg (terms cfg) dir none data) : ∃ service, launch cfg id voters dir state = some service := by
  obtain ⟨log, opened⟩ := SegmentLog.stands_opens cfg (terms cfg) dir data stands le_rfl
  have started := SegmentLog.stands_start cfg (terms cfg) dir data stands log opened
  have offset := SegmentLog.stands_next_offset cfg (terms cfg) _ log data started
  cases same : SegmentLog.Log.new cfg dir with
  | mk writes outcome =>
      rw [same] at opened
      cases opened
      refine ⟨⟨newRuntime id voters (cfg.initalOffset + data.length) state .leader ⟨dir.applyAll writes, log, []⟩, []⟩, ?_⟩
      rw [launch, same]
      simp only [offset]

section Serve

variable (first : cfg.initalOffset = 1)

include first

theorem resumed_serves (earlier : List Bytes) (service : Service) (message : Message) (data : List Bytes)
    (resumed : Resumed cfg codec earlier service data) (room : service.runtime.world.log.roomFor (terms cfg).limit = true)
    (storable : storable codec service.runtime message = true) (typed : (service.accepted ++ earlier).length + 1 < u64Max)
    (ids : service.runtime.nextOperationId < u64Max) :
    ∃ next later, serve cfg codec service message = some next ∧ Resumed cfg codec earlier next later := by
  obtain ⟨after, later, ends, wrote⟩ := resumed_write cfg codec earlier service message data resumed first room storable typed
  exact ⟨_, later, serve_ends cfg codec service message resumed.alone resumed.quiet ids storable after ends, wrote⟩

theorem resumed_step (earlier : List Bytes) (service next : Service) (message : Message) (data : List Bytes)
    (resumed : Resumed cfg codec earlier service data) (room : service.runtime.world.log.roomFor (terms cfg).limit = true)
    (typed : (service.accepted ++ earlier).length + 1 < u64Max) (moves : serve cfg codec service message = some next) :
    ∃ later, Resumed cfg codec earlier next later := by
  have served := moves
  rw [serve] at moves
  split at moves
  case isFalse => cases moves
  rename_i storable
  obtain ⟨after, stepped, _⟩ := Option.map_eq_some_iff.mp moves
  obtain ⟨_, later, again, wrote⟩ := resumed_serves cfg codec first earlier service message data resumed room storable typed
    (step_ids (backed cfg codec) service.runtime after message stepped)
  cases served.symm.trans again
  exact ⟨later, wrote⟩

theorem sound_step (only : ∀ voter, voter ∈ voters ↔ voter = id) (host next : Host) (action : Action)
    (sound : Sound cfg codec host) (permitted : permits cfg host action = true)
    (moves : step cfg codec id voters host action = some next) : Sound cfg codec next := by
  obtain ⟨process, earlier⟩ := host
  cases process with
  | stopped dir =>
      obtain ⟨data, stands, decodes⟩ := sound
      cases action with
      | start state =>
          obtain ⟨service, launched, rfl⟩ := Option.map_eq_some_iff.mp moves
          exact ⟨data, launch_resumed cfg codec id voters only dir state earlier data service stands decodes launched⟩
      | write | stop | kill => cases moves
  | serving service =>
      obtain ⟨data, resumed⟩ := sound
      cases action with
      | start => cases moves
      | write message =>
          obtain ⟨after, served, rfl⟩ := Option.map_eq_some_iff.mp moves
          obtain ⟨room, typed⟩ := Bool.and_eq_true_iff.mp permitted
          exact resumed_step cfg codec first earlier service after message data resumed room (of_decide_eq_true typed) served
      | stop =>
          cases moves
          exact ⟨data, SegmentLog.stands_drop cfg (terms cfg) _ _ data resumed.stands, resumed.decodes⟩
      | kill =>
          cases moves
          exact ⟨data, SegmentLog.stands_crash cfg (terms cfg) _ _ data resumed.stands (.inl permitted), resumed.decodes⟩

theorem sound_run (only : ∀ voter, voter ∈ voters ↔ voter = id) (host : Host)
    (run : Run (machine cfg codec id voters) (fun host action => permits cfg host action = true) host) : Sound cfg codec host := by
  apply run_invariant _ _ (Sound cfg codec) ?_ ?_ host run
  · rintro _ rfl
    exact ⟨[], SegmentLog.empty_stands cfg (terms cfg), .nil⟩
  · intro host action next _ sound permitted moves
    exact sound_step cfg codec id voters first only host next action sound permitted moves

end Serve

-- What a process finds and does: the log of all processes, and an FSM that has been given
-- nothing, or every command of the log in its order.
structure Replayed (earlier : List Bytes) (service : Service) : Prop where
  answered : service.runtime.replies.map Prod.fst = service.handled.map Message.reply
  logged : ∀ index command, (service.accepted ++ earlier).reverse[index]? = some command → ∀ buf, ∃ bytes,
    (service.runtime.world.log.read service.runtime.world.dir (index + 1) buf).2.2 = (bytes, .ok ()) ∧ Holds codec bytes command
  ends : service.runtime.world.log.nextOffset = .ok ((service.accepted ++ earlier).length + 1)
  given : service.runtime.world.given = if service.accepted = [] then [] else service.accepted ++ earlier
  applied : service.runtime.raft.lastApplied = service.runtime.world.given.length
  committed : service.runtime.raft.commitIndex = service.runtime.world.given.length
  last : service.runtime.raft.lastLogIndex = service.runtime.world.given.length

theorem resumed_given (earlier : List Bytes) (service : Service) (data : List Bytes)
    (resumed : Resumed cfg codec earlier service data) :
    service.runtime.world.given = (if service.accepted = [] then [] else service.accepted ++ earlier) ∧
      caughtUp earlier service = service.runtime.world.given.length := by
  have given := resumed.given
  by_cases none : service.accepted = []
  · rw [caughtUp, if_pos none, List.take_zero, List.reverse_nil] at given
    rw [given, caughtUp, if_pos none, if_pos none]
    exact ⟨rfl, rfl⟩
  · rw [caughtUp, if_neg none, ← List.length_reverse, List.take_length, List.reverse_reverse] at given
    rw [given, caughtUp, if_neg none, if_neg none]
    exact ⟨rfl, rfl⟩

theorem resumed_replayed (first : cfg.initalOffset = 1) (earlier : List Bytes) (service : Service) (data : List Bytes)
    (resumed : Resumed cfg codec earlier service data) : Replayed codec earlier service := by
  have length := resumed_length cfg codec earlier service data resumed
  obtain ⟨given, reach⟩ := resumed_given cfg codec earlier service data resumed
  constructor
  case answered => exact resumed.answered
  case logged =>
    intro index command found buf
    obtain ⟨there, own⟩ := List.getElem?_eq_some_iff.mp found
    have bound : index < data.length := resumed.decodes.length_eq ▸ there
    have read := SegmentLog.stands_whole cfg (terms cfg) _ _ data resumed.stands rfl (SegmentLog.recoverable_limit_narrow cfg)
      index _ buf (List.getElem?_eq_getElem bound)
    rw [first, Nat.add_comm] at read
    refine ⟨_, read, ?_⟩
    have same := resumed.decodes.get bound there
    rw [List.get_eq_getElem, List.get_eq_getElem, own] at same
    exact same
  case ends =>
    rw [SegmentLog.stands_next_offset cfg (terms cfg) _ _ data resumed.stands, first, length, Nat.add_comm]
  case given => exact given
  case applied => exact resumed.applied.trans reach
  case committed => exact resumed.committed.trans reach
  case last => exact resumed.last.trans reach

end Hosts

-- A segment is full with its second record.
def pairConfig : SegmentLog.Config := ⟨1, true, 24, 1024⟩

-- The second process applies what the first one was told, and the third what both were.
def threeProcesses : List Action :=
  [.start ⟨7, none⟩, .write ⟨[1], 10⟩, .write ⟨[2], 11⟩, .write ⟨[3], 12⟩, .kill,
    .start ⟨8, some nodeA⟩, .write ⟨[4], 10⟩, .stop, .start ⟨8, some nodeA⟩, .write ⟨[5], 10⟩]

def pairAfter (actions : List Action) : Host :=
  (execWhen (machine pairConfig shortCodec nodeA [nodeA]) (permits pairConfig) ⟨.stopped SegmentLog.emptyDir, []⟩ actions).getD
    ⟨.stopped SegmentLog.emptyDir, []⟩

theorem pair_after_run (actions : List Action)
    (runs : (execWhen (machine pairConfig shortCodec nodeA [nodeA]) (permits pairConfig) ⟨.stopped SegmentLog.emptyDir, []⟩
      actions).isSome = true) :
    Run (machine pairConfig shortCodec nodeA [nodeA]) (fun host action => permits pairConfig host action = true)
      (pairAfter actions) :=
  exec_when_reaches _ _ _ (fun _ _ meets => meets) actions _ _ (.start _ rfl) runs

end RaftLog.Restarts
