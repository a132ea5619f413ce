import RaftLog.Runtime.Writing

set_option autoImplicit false

namespace RaftLog.Waiting

open Lib Replication Drive

-- The local node is a voter among others.
structure Seated (raft : Raft) : Prop where
  member : raft.id ∈ raft.voters
  others : ∃ voter ∈ raft.voters, voter ≠ raft.id

theorem seated_targets (raft : Raft) (seated : Seated raft) : raft.replicationTargets.isEmpty = false := by
  obtain ⟨voter, member, apart⟩ := seated.others
  obtain ⟨entry, listed, rfl⟩ := List.mem_map.mp (AList.mem_keys.mp member)
  have kept : entry ∈ (raft.voters.entries ++ raft.learners.entries).filter fun entry => entry.1 ≠ raft.id :=
    List.mem_filter.mpr ⟨List.mem_append_left _ listed, by simpa using apart⟩
  rw [Raft.replicationTargets, List.isEmpty_eq_false_iff]
  exact List.ne_nil_of_mem (List.mem_map_of_mem kept)

theorem seated_appends (raft : Raft) (entry : LocalEntry) (seated : Seated raft) (leader : raft.role = .leader)
    (most : entry.index < u64Max) : handleLocalEntryAppended raft entry =
      .ok (appendedRaft raft entry, .ok (some (.sendAppendEntries entry.operationId raft.replicationTargets))) := by
  have sum : addU64 entry.index 1 = .ok (entry.index + 1) := if_pos most
  unfold handleLocalEntryAppended
  rw [if_neg (not_not.mpr leader)]
  simp only [seated_targets raft seated, if_neg (not_not.mpr seated.member), sum, bind, Except.bind, Bool.false_eq_true, if_false]
  rfl

theorem seated_overflows (raft : Raft) (entry : LocalEntry) (seated : Seated raft) (leader : raft.role = .leader)
    (most : ¬ entry.index < u64Max) : handleLocalEntryAppended raft entry = .error ⟨"attempt to add with overflow"⟩ := by
  have sum : addU64 entry.index 1 = .error ⟨"attempt to add with overflow"⟩ := if_neg most
  unfold handleLocalEntryAppended
  rw [if_neg (not_not.mpr leader)]
  simp only [if_neg (not_not.mpr seated.member), sum, bind, Except.bind]

theorem appended_seated (raft : Raft) (entry : LocalEntry) (seated : Seated raft) : Seated (appendedRaft raft entry) where
  member := by simpa [appendedRaft, assign, AList.mem_keys] using seated.member
  others := by
    obtain ⟨voter, member, apart⟩ := seated.others
    exact ⟨voter, by simpa [appendedRaft, assign, AList.mem_keys] using member, apart⟩

section Turn

variable {σ : Type} (world : World σ)

theorem erase_new (operations : AList fun _ : OperationId => Pending) (operation : OperationId) (pending : Pending)
    (fresh : operation ∉ operations) : (operations.insert operation pending).erase operation = operations := by
  apply AList.ext
  have outside : operation ∉ operations.entries.keys := fresh
  simp [AList.insert, AList.erase, List.kinsert, List.kerase_of_notMem_keys outside]

-- The runtime that has answered a write with an error.
def refused (runtime : Runtime σ) (state : σ) (buf : Bytes) (reply : Nat) (failure : Failure) : Runtime σ :=
  { runtime with
    world := state, nextOperationId := runtime.nextOperationId + 1, buf := buf
    replies := (reply, .error failure) :: runtime.replies }

-- The runtime that has appended a write, and waits for the others.
def waiting (runtime : Runtime σ) (message : Message) (index : Nat) (state : σ) (buf : Bytes) : Runtime σ :=
  { runtime with
    raft := appendedRaft runtime.raft (localEntry runtime index), world := state
    nextOperationId := runtime.nextOperationId + 1
    operations := runtime.operations.insert (operationOf runtime) ⟨none, message.reply⟩, buf := buf }

-- How a write ends at a leader that is not the only voter.
inductive PeerStep (runtime : Runtime σ) (message : Message) : Except Panic (Runtime σ) → Prop where
  | unencoded (state : σ) (error : String)
      (encoded : world.encode runtime.world (entryOf runtime message) = (state, .error error)) :
      PeerStep runtime message (.ok (refused runtime state [] message.reply (.entrySerialisationFailed error)))
  | appendUnwinds (state : σ) (bytes : Bytes) (panic : Panic)
      (encoded : world.encode runtime.world (entryOf runtime message) = (state, .ok bytes))
      (unwound : world.append state bytes = .error panic) : PeerStep runtime message (.error panic)
  | unappended (state later : σ) (bytes : Bytes) (error : String)
      (encoded : world.encode runtime.world (entryOf runtime message) = (state, .ok bytes))
      (unable : world.append state bytes = .ok (later, .error error)) :
      PeerStep runtime message (.ok (refused runtime later bytes message.reply .appendFailed))
  | overflows (state later : σ) (bytes : Bytes) (index : Nat) (panic : Panic)
      (encoded : world.encode runtime.world (entryOf runtime message) = (state, .ok bytes))
      (appended : world.append state bytes = .ok (later, .ok index)) (most : ¬ index < u64Max) :
      PeerStep runtime message (.error panic)
  | waits (state later : σ) (bytes : Bytes) (index : Nat)
      (encoded : world.encode runtime.world (entryOf runtime message) = (state, .ok bytes))
      (appended : world.append state bytes = .ok (later, .ok index)) (most : index < u64Max) :
      PeerStep runtime message (.ok (waiting runtime message index later bytes))

-- The runtime that has taken a message in.
def opening (runtime : Runtime σ) (message : Message) : Runtime σ :=
  { runtime with
    nextOperationId := runtime.nextOperationId + 1
    operations := runtime.operations.insert (operationOf runtime) ⟨some message.data, message.reply⟩ }

theorem handle_message_opening (fuel : Nat) (runtime : Runtime σ) (message : Message)
    (fresh : operationOf runtime ∉ runtime.operations) (ids : runtime.nextOperationId < u64Max) :
    handleMessage world fuel runtime message =
      (drive world fuel (opening runtime message) (.write (operationOf runtime))).map (finish (operationOf runtime)) := by
  have new : (⟨runtime.nextOperationId⟩ : OperationId) ∉ runtime.operations := fresh
  rw [handleMessage, if_neg (by omega), if_neg new]
  rfl

-- The runtime that has tried to write a message's entry to its log.
def tried (runtime : Runtime σ) (message : Message) (state : σ) (buf : Bytes) : Runtime σ :=
  { opening runtime message with
    world := state, operations := runtime.operations.insert (operationOf runtime) ⟨none, message.reply⟩, buf := buf }

theorem append_local_new (runtime : Runtime σ) (message : Message) (fresh : operationOf runtime ∉ runtime.operations) :
    appendLocal world (opening runtime message) (operationOf runtime) runtime.raft.currentTerm =
      match world.encode runtime.world (entryOf runtime message) with
      | (state, .error error) => .ok (tried runtime message state [], .error (.entrySerialisationFailed error))
      | (state, .ok bytes) =>
          match world.append state bytes with
          | .error panic => .error panic
          | .ok (state, .error _) => .ok (tried runtime message state bytes, .error .appendFailed)
          | .ok (state, .ok index) => .ok
              (tried runtime message state bytes, .ok (some (.localEntriesAppended (localEntry runtime index)))) := by
  rw [appendLocal, opening, AList.lookup_insert]
  dsimp only
  rw [erase_new runtime.operations (operationOf runtime) _ fresh]
  rfl

theorem fail_tried (runtime : Runtime σ) (message : Message) (state : σ) (buf : Bytes) (failure : Failure)
    (fresh : operationOf runtime ∉ runtime.operations) :
    failOperation (tried runtime message state buf) (operationOf runtime) failure =
      refused runtime state buf message.reply failure := by
  rw [failOperation, tried, AList.lookup_insert]
  dsimp only
  rw [erase_new runtime.operations (operationOf runtime) _ fresh]
  rfl

-- The effect that would send the entry to the others does nothing, and drive ends.
theorem peer_step (fuel : Nat) (runtime : Runtime σ) (message : Message) (seated : Seated runtime.raft)
    (leader : runtime.raft.role = .leader) (fresh : operationOf runtime ∉ runtime.operations)
    (ids : runtime.nextOperationId < u64Max) :
    ∃ outcome, handleMessage world (fuel + 2) runtime message = some outcome ∧ PeerStep world runtime message outcome := by
  have handled : handle (opening runtime message).raft (.write (operationOf runtime)) =
      .ok (runtime.raft, .ok (some (.appendLocal (operationOf runtime) runtime.raft.currentTerm runtime.raft.lastLogIndex))) :=
    if_neg (not_not.mpr leader)
  rw [handle_message_opening world (fuel + 2) runtime message fresh ids, drive_effect world (fuel + 1) _ _ _ _ handled, Drive.execute,
    show ({ opening runtime message with raft := runtime.raft } : Runtime σ) = opening runtime message from rfl,
    append_local_new world runtime message fresh]
  cases encoded : world.encode runtime.world (entryOf runtime message) with
  | mk state answer =>
      cases answer with
      | error error =>
          refine ⟨_, rfl, ?_⟩
          simp only [finish, Except.map, fail_tried runtime message _ _ _ fresh]
          exact .unencoded state error encoded
      | ok bytes =>
          dsimp only
          cases appended : world.append state bytes with
          | error panic => exact ⟨_, rfl, .appendUnwinds state bytes panic encoded appended⟩
          | ok outcome =>
              obtain ⟨later, answer⟩ := outcome
              cases answer with
              | error error =>
                  refine ⟨_, rfl, ?_⟩
                  simp only [finish, Except.map, fail_tried runtime message _ _ _ fresh]
                  exact .unappended state later bytes error encoded appended
              | ok index =>
                  simp only [resume]
                  by_cases most : index < u64Max
                  · have next : handle (tried runtime message later bytes).raft (.localEntriesAppended (localEntry runtime index)) = _ :=
                      seated_appends runtime.raft (localEntry runtime index) seated leader most
                    rw [drive_effect world fuel _ _ _ _ next]
                    exact ⟨_, rfl, .waits state later bytes index encoded appended most⟩
                  · have next : handle (tried runtime message later bytes).raft (.localEntriesAppended (localEntry runtime index)) = _ :=
                      seated_overflows runtime.raft (localEntry runtime index) seated leader most
                    rw [Drive.drive, next]
                    exact ⟨_, rfl, .overflows state later bytes index _ encoded appended most⟩

end Turn

-- The commands of the writes that wait, newest first. A write's operation has its number.
def waitingOf (operations : AList fun _ : OperationId => Pending) : List Message → List Bytes
  | [] => []
  | message :: rest =>
      if (⟨rest.length + 1⟩ : OperationId) ∈ operations then message.data :: waitingOf operations rest
      else waitingOf operations rest

theorem waiting_of_insert (operations : AList fun _ : OperationId => Pending) (operation : OperationId) (pending : Pending)
    (handled : List Message) (later : handled.length < operation.id) :
    waitingOf (operations.insert operation pending) handled = waitingOf operations handled := by
  induction handled with
  | nil => rfl
  | cons message rest ih =>
      rw [List.length_cons] at later
      have apart : (⟨rest.length + 1⟩ : OperationId) ≠ operation := by
        rintro rfl
        exact Nat.lt_irrefl _ later
      rw [waitingOf, waitingOf, ih (Nat.lt_of_succ_lt later)]
      simp only [AList.mem_insert, apart, false_or]

theorem waiting_of_length (operations : AList fun _ : OperationId => Pending) (handled : List Message) :
    (waitingOf operations handled).length ≤ handled.length := by
  induction handled with
  | nil => exact le_rfl
  | cons message rest ih =>
      rw [waitingOf]
      split
      · exact Nat.succ_le_succ ih
      · exact Nat.le_succ_of_le ih

def waitingCommands (service : Service) : List Bytes := waitingOf service.runtime.operations service.handled

-- The log has room, and numbers for every write so far.
def numbered (cfg : SegmentLog.Config) (service : Service) : Bool :=
  service.runtime.world.log.roomFor (2 ^ 32) && decide (cfg.initalOffset + service.handled.length < u64Max)

def Refusal : Except Failure Unit → Prop
  | .error .appendFailed | .error (.entrySerialisationFailed _) => True
  | _ => False

-- What a leader with other voters comes to: nothing is answered Ok, committed or applied,
-- and its log holds the writes that wait.
structure Unanswered (cfg : SegmentLog.Config) (codec : Codec) (service : Service) : Prop where
  refusals : ∀ reply result, (reply, result) ∈ service.runtime.replies → Refusal result
  each : (service.runtime.replies.map Prod.fst ++ service.runtime.operations.entries.map fun entry => entry.2.reply).Perm
    (service.handled.map Message.reply)
  given : service.runtime.world.given = []
  unapplied : service.runtime.raft.lastApplied = 0
  uncommitted : service.runtime.raft.commitIndex = 0
  logged : ∀ index command, (waitingCommands service).reverse[index]? = some command → ∀ buf, ∃ bytes,
    (service.runtime.world.log.read service.runtime.world.dir (cfg.initalOffset + index) buf).2.2 = (bytes, .ok ()) ∧
      codec.decode bytes = .ok ⟨service.runtime.raft.currentTerm, command⟩
  ends : service.runtime.world.log.nextOffset = .ok (cfg.initalOffset + (waitingCommands service).length)

structure Waits (cfg : SegmentLog.Config) (codec : Codec) (service : Service) (data : List Bytes) : Prop where
  seated : Seated service.runtime.raft
  leader : service.runtime.raft.role = .leader
  below : ∀ operation ∈ service.runtime.operations, operation.id < service.runtime.nextOperationId
  ids : service.runtime.nextOperationId = service.handled.length + 1
  stands : SegmentLog.Stands cfg ⟨2 ^ 32, true⟩ service.runtime.world.dir (some service.runtime.world.log) data
  decodes : List.Forall₂ (fun bytes command => codec.decode bytes = .ok ⟨service.runtime.raft.currentTerm, command⟩) data
    (waitingCommands service).reverse
  refusals : ∀ reply result, (reply, result) ∈ service.runtime.replies → Refusal result
  each : (service.runtime.replies.map Prod.fst ++ service.runtime.operations.entries.map fun entry => entry.2.reply).Perm
    (service.handled.map Message.reply)
  given : service.runtime.world.given = []
  unapplied : service.runtime.raft.lastApplied = 0
  uncommitted : service.runtime.raft.commitIndex = 0

section Service

variable (cfg : SegmentLog.Config) (codec : Codec)

theorem waits_unanswered (service : Service) (data : List Bytes) (waits : Waits cfg codec service data) :
    Unanswered cfg codec service where
  refusals := waits.refusals
  each := waits.each
  given := waits.given
  unapplied := waits.unapplied
  uncommitted := waits.uncommitted
  logged := by
    intro index command found buf
    obtain ⟨there, own⟩ := List.getElem?_eq_some_iff.mp found
    have bound : index < data.length := waits.decodes.length_eq ▸ there
    refine ⟨data[index], SegmentLog.stands_whole cfg ⟨2 ^ 32, true⟩ _ _ data waits.stands rfl le_rfl index _ buf
      (List.getElem?_eq_getElem bound), ?_⟩
    have same := waits.decodes.get bound there
    rw [List.get_eq_getElem, List.get_eq_getElem, own] at same
    exact same
  ends := by
    rw [SegmentLog.stands_next_offset cfg ⟨2 ^ 32, true⟩ _ _ data waits.stands, waits.decodes.length_eq, List.length_reverse]

section Write

variable (service : Service) (message : Message) (data : List Bytes) (waits : Waits cfg codec service data)

include waits

theorem waits_fresh : operationOf service.runtime ∉ service.runtime.operations :=
  fun member => Nat.lt_irrefl _ (waits.below _ member)

theorem below_next (operation : OperationId) (member : operation ∈ service.runtime.operations) :
    operation.id < service.runtime.nextOperationId + 1 := Nat.lt_succ_of_lt (waits.below operation member)

-- A write that is refused leaves no operation behind.
theorem waits_refused (later : Backing) (buf : Bytes) (failure : Failure) (refusal : Refusal (.error failure))
    (given : later.given = service.runtime.world.given)
    (stands : SegmentLog.Stands cfg ⟨2 ^ 32, true⟩ later.dir (some later.log) data) :
    Waits cfg codec ⟨refused service.runtime later buf message.reply failure, message :: service.handled⟩ data := by
  have gone : (⟨service.handled.length + 1⟩ : OperationId) ∉ service.runtime.operations := by
    rw [← waits.ids]
    exact waits_fresh cfg codec service data waits
  constructor
  case seated => exact waits.seated
  case leader => exact waits.leader
  case below => exact below_next cfg codec service data waits
  case ids => exact congrArg (· + 1) waits.ids
  case stands => exact stands
  case decodes =>
    rw [waitingCommands]
    dsimp only [refused]
    rw [waitingOf, if_neg gone]
    exact waits.decodes
  case refusals =>
    intro reply result listed
    rcases List.mem_cons.mp listed with same | before
    · cases same
      exact refusal
    · exact waits.refusals reply result before
  case each => exact waits.each.cons message.reply
  case given => exact given.trans waits.given
  case unapplied => exact waits.unapplied
  case uncommitted => exact waits.uncommitted

theorem waits_appended (later : Backing) (bytes : Bytes) (index : Nat) (given : later.given = service.runtime.world.given)
    (stands : SegmentLog.Stands cfg ⟨2 ^ 32, true⟩ later.dir (some later.log) (data ++ [bytes]))
    (decoded : codec.decode bytes = .ok (entryOf service.runtime message)) :
    Waits cfg codec ⟨waiting service.runtime message index later bytes, message :: service.handled⟩ (data ++ [bytes]) := by
  have fresh := waits_fresh cfg codec service data waits
  have own : operationOf service.runtime = ⟨service.handled.length + 1⟩ := congrArg OperationId.mk waits.ids
  constructor
  case seated => exact appended_seated service.runtime.raft (localEntry service.runtime index) waits.seated
  case leader => exact waits.leader
  case below =>
    intro operation member
    rcases (AList.mem_insert _).mp member with rfl | before
    · exact Nat.lt_succ_self _
    · exact below_next cfg codec service data waits operation before
  case ids => exact congrArg (· + 1) waits.ids
  case stands => exact stands
  case decodes =>
    rw [waitingCommands]
    dsimp only [waiting]
    rw [waitingOf, own, if_pos ((AList.mem_insert _).mpr (.inl rfl)),
      waiting_of_insert _ _ _ service.handled (Nat.lt_succ_self _), List.reverse_cons]
    exact List.rel_append waits.decodes (.cons decoded .nil)
  case refusals => exact waits.refusals
  case each =>
    dsimp only [waiting]
    rw [AList.entries_insert_of_notMem fresh, List.map_cons]
    exact List.perm_middle.trans (waits.each.cons message.reply)
  case given => exact given.trans waits.given
  case unapplied => exact waits.unapplied
  case uncommitted => exact waits.uncommitted

variable (numbered : numbered cfg service = true) (storable : storable codec service.runtime message = true)

include numbered storable

theorem waits_outcome (outcome : Except Panic (Runtime Backing))
    (ends : PeerStep (backed cfg codec) service.runtime message outcome) :
    ∃ after later, outcome = .ok after ∧ Waits cfg codec ⟨after, message :: service.handled⟩ later := by
  obtain ⟨room, most⟩ := Bool.and_eq_true_iff.mp numbered
  have offsets : cfg.initalOffset + data.length < u64Max := by
    have few := waiting_of_length service.runtime.operations service.handled
    have length := waits.decodes.length_eq
    rw [List.length_reverse, waitingCommands] at length
    have last := of_decide_eq_true most
    omega
  -- the log takes the record, or refuses it and stays as it is
  have wrote : ∀ bytes, codec.encode (entryOf service.runtime message) = .ok bytes →
      service.runtime.world.log.fits bytes = true := by
    intro bytes encodes
    rw [Drive.storable, encodes] at storable
    exact storable
  cases ends with
  | unencoded state error encoded =>
      obtain ⟨rfl, _⟩ := Prod.mk.inj encoded
      exact ⟨_, data, rfl, waits_refused cfg codec service message data waits _ _ _ trivial rfl waits.stands⟩
  | appendUnwinds state bytes panic encoded unwound =>
      obtain ⟨rfl, encodes⟩ := Prod.mk.inj encoded
      obtain ⟨later, answer, appended, _⟩ :=
        backed_append cfg codec ⟨2 ^ 32, true⟩ _ data waits.stands bytes (wrote bytes encodes) room offsets
      cases appended.symm.trans unwound
  | unappended state later bytes error encoded unable =>
      obtain ⟨rfl, encodes⟩ := Prod.mk.inj encoded
      obtain ⟨_, _, appended, given, ⟨rfl, _⟩ | ⟨_, kept⟩⟩ :=
        backed_append cfg codec ⟨2 ^ 32, true⟩ _ data waits.stands bytes (wrote bytes encodes) room offsets
      · cases appended.symm.trans unable
      · cases appended.symm.trans unable
        exact ⟨_, data, rfl, waits_refused cfg codec service message data waits _ _ _ trivial given kept⟩
  | overflows state later bytes index panic encoded answered most =>
      obtain ⟨rfl, encodes⟩ := Prod.mk.inj encoded
      obtain ⟨_, _, appended, _, ⟨rfl, _⟩ | ⟨⟨_, rfl⟩, _⟩⟩ :=
        backed_append cfg codec ⟨2 ^ 32, true⟩ _ data waits.stands bytes (wrote bytes encodes) room offsets
      · cases appended.symm.trans answered
        exact absurd offsets most
      · cases appended.symm.trans answered
  | waits state later bytes index encoded answered most =>
      obtain ⟨rfl, encodes⟩ := Prod.mk.inj encoded
      obtain ⟨_, _, appended, given, ⟨rfl, added⟩ | ⟨⟨_, rfl⟩, _⟩⟩ :=
        backed_append cfg codec ⟨2 ^ 32, true⟩ _ data waits.stands bytes (wrote bytes encodes) room offsets
      · cases appended.symm.trans answered
        exact ⟨_, data ++ [bytes], rfl,
          waits_appended cfg codec service message data waits _ bytes _ given added (codec.inverse _ _ encodes)⟩
      · cases appended.symm.trans answered

theorem waits_serves (ids : service.runtime.nextOperationId < u64Max) :
    ∃ next later, serve cfg codec service message = some next ∧ Waits cfg codec next later := by
  obtain ⟨outcome, handled, ends⟩ := peer_step (backed cfg codec) 1 service.runtime message waits.seated waits.leader
    (waits_fresh cfg codec service data waits) ids
  obtain ⟨after, later, rfl, waits⟩ := waits_outcome cfg codec service message data waits numbered storable outcome ends
  refine ⟨_, later, ?_, waits⟩
  rw [serve, if_pos storable, Drive.step, handled]
  rfl

end Write

theorem waits_step (service next : Service) (message : Message) (data : List Bytes)
    (waits : Waits cfg codec service data) (numbered : numbered cfg service = true)
    (moves : serve cfg codec service message = some next) : ∃ later, Waits cfg codec next later := by
  have served := moves
  rw [serve] at moves
  split at moves
  case isFalse => cases moves
  rename_i storable
  obtain ⟨after, stepped, _⟩ := Option.map_eq_some_iff.mp moves
  obtain ⟨_, later, again, waits⟩ := waits_serves cfg codec service message data waits numbered storable
    (step_ids (backed cfg codec) service.runtime after message stepped)
  cases served.symm.trans again
  exact ⟨later, waits⟩

theorem started_waits (id : NodeId) (voters : List NodeId) (member : id ∈ voters) (others : ∃ voter ∈ voters, voter ≠ id)
    (state : State) (service : Service) (started : Started cfg id voters state service) : Waits cfg codec service [] := by
  obtain ⟨log, next, opened, _, rfl⟩ := started
  have keys : ∀ voter, voter ∈ (newRaft id voters next state).voters ↔ voter ∈ voters := by
    intro voter
    rw [AList.mem_keys, ← List.mem_toFinset, new_raft_voters, List.mem_toFinset]
  constructor
  case seated =>
    obtain ⟨voter, inside, apart⟩ := others
    exact ⟨(keys id).mpr member, voter, (keys voter).mpr inside, apart⟩
  case leader => rfl
  case below => exact fun operation listed => absurd listed (AList.notMem_empty operation)
  case ids => rfl
  case stands =>
    exact SegmentLog.stands_start cfg ⟨2 ^ 32, true⟩ SegmentLog.emptyDir [] (SegmentLog.empty_stands cfg _) log opened
  case decodes => exact .nil
  case refusals => simp [newRuntime]
  case each => exact .nil
  case given => rfl
  case unapplied => rfl
  case uncommitted => rfl

-- A leader takes every write into its log, and there it stays: no client hears of it again.
theorem writes_wait (id : NodeId) (voters : List NodeId) (member : id ∈ voters) (others : ∃ voter ∈ voters, voter ≠ id)
    (state : State) (service : Service)
    (run : Run (served cfg codec id voters state) (fun service _ => numbered cfg service = true) service) :
    Unanswered cfg codec service ∧ ∀ message, numbered cfg service = true → storable codec service.runtime message = true →
      service.handled.length + 1 < u64Max → ∃ next, serve cfg codec service message = some next := by
  have invariant : ∃ data, Waits cfg codec service data := by
    apply run_invariant (served cfg codec id voters state) _ (fun service => ∃ data, Waits cfg codec service data) ?_ ?_
      service run
    · intro service started
      exact ⟨[], started_waits cfg codec id voters member others state service started⟩
    · rintro service message next _ ⟨data, waits⟩ numbered moves
      exact waits_step cfg codec service next message data waits numbered moves
  obtain ⟨data, waits⟩ := invariant
  refine ⟨waits_unanswered cfg codec service data waits, fun message numbered storable few => ?_⟩
  rw [← waits.ids] at few
  obtain ⟨next, _, serves, _⟩ := waits_serves cfg codec service message data waits numbered storable few
  exact ⟨next, serves⟩

end Service

def crowdedStart : Service where
  runtime := newRuntime nodeA threeNodes 1 ⟨7, none⟩ .leader tightStart.runtime.world
  handled := []

def crowded : Machine Service Message := served tightConfig shortCodec nodeA threeNodes ⟨7, none⟩

def crowdedAfter (messages : List Message) : Service :=
  (execWhen crowded (fun service _ => numbered tightConfig service) crowdedStart messages).getD crowdedStart

-- The third write finds no room in the index.
theorem two_writes_wait : waitingCommands (crowdedAfter threeWrites) = [[2], [1]] ∧
    (crowdedAfter threeWrites).runtime.replies = [(12, .error .appendFailed)] ∧
    Unanswered tightConfig shortCodec (crowdedAfter threeWrites) := by
  have starts : crowded.start crowdedStart := ⟨_, 1, by decide +kernel, by decide +kernel, rfl⟩
  have run : Run crowded (fun service _ => numbered tightConfig service = true) (crowdedAfter threeWrites) :=
    exec_when_reaches crowded _ (fun service _ => numbered tightConfig service) (fun _ _ meets => meets) threeWrites
      crowdedStart crowdedStart (.start crowdedStart starts) (by decide +kernel)
  exact ⟨by decide +kernel, by decide +kernel, (writes_wait tightConfig shortCodec nodeA threeNodes (by decide)
    ⟨nodeB, by decide, by decide⟩ ⟨7, none⟩ (crowdedAfter threeWrites) run).1⟩

end RaftLog.Waiting
