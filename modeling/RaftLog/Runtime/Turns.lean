import RaftLog.Core.Steps
import RaftLog.Runtime.Model

set_option autoImplicit false

namespace RaftLog.Drive

open Lib Replication

-- The local node is the only voter.
structure Alone (raft : Raft) : Prop where
  voters : ∀ voter ∈ raft.voters.keys, voter = raft.id
  member : raft.id ∈ raft.voters
  learners : raft.learners = ∅

theorem alone_targets (raft : Raft) (alone : Alone raft) : raft.replicationTargets.isEmpty = true := by
  rw [Raft.replicationTargets, alone.learners, List.isEmpty_iff, List.map_eq_nil_iff, List.filter_eq_nil_iff]
  intro entry member
  have voter : entry ∈ raft.voters.entries := by simpa using member
  have same := alone.voters entry.1 (List.mem_map_of_mem voter)
  simp [same]

-- The raft that has appended and committed an entry of its own.
def committedRaft (raft : Raft) (entry : LocalEntry) : Raft :=
  { appendedRaft raft entry with commitIndex := entry.index }

theorem committed_alone (raft : Raft) (entry : LocalEntry) (alone : Alone raft) : Alone (committedRaft raft entry) where
  voters := by
    intro voter member
    exact alone.voters voter (by simpa [committedRaft, appendedRaft, assign] using member)
  member := by
    simpa [committedRaft, appendedRaft, assign, AList.mem_keys] using alone.member
  learners := alone.learners

theorem alone_appends (raft : Raft) (entry : LocalEntry) (alone : Alone raft) (leader : raft.role = .leader)
    (most : entry.index < u64Max) :
    handleLocalEntryAppended raft entry =
      .ok (committedRaft raft entry, .ok (some (.applyCommitted entry.operationId entry.index))) := by
  have sum : addU64 entry.index 1 = .ok (entry.index + 1) := if_pos most
  unfold handleLocalEntryAppended
  rw [if_neg (not_not.mpr leader)]
  simp only [alone_targets raft alone, if_neg (not_not.mpr alone.member), sum, bind, Except.bind, if_pos]
  rfl

theorem alone_overflows (raft : Raft) (entry : LocalEntry) (leader : raft.role = .leader) (alone : Alone raft)
    (most : ¬ entry.index < u64Max) :
    handleLocalEntryAppended raft entry = .error ⟨"attempt to add with overflow"⟩ := by
  have sum : addU64 entry.index 1 = .error ⟨"attempt to add with overflow"⟩ := if_neg most
  unfold handleLocalEntryAppended
  rw [if_neg (not_not.mpr leader)]
  simp only [if_neg (not_not.mpr alone.member), sum, bind, Except.bind]

section Drive

variable {σ : Type} (world : World σ)

theorem apply_entry_frame (runtime next : Runtime σ) (index : Nat) (result : Except Failure Unit)
    (applied : applyEntry world runtime index = .ok (next, result)) :
    next = { runtime with world := next.world, buf := next.buf, applied := next.applied } ∧
      (next.applied = match result with
        | .ok () => index :: runtime.applied
        | .error _ => runtime.applied) := by
  unfold applyEntry at applied
  split at applied
  · cases applied
  · cases applied
    exact ⟨rfl, rfl⟩
  · split at applied
    · cases applied
      exact ⟨rfl, rfl⟩
    · split at applied
      · cases applied
        exact ⟨rfl, rfl⟩
      · cases applied
        exact ⟨rfl, rfl⟩

-- The entries whose apply returned Ok are a first part of the batch, all of it when
-- the loop runs to its end.
theorem apply_entries_frame (indexes : List Nat) (runtime next : Runtime σ) (result : Except Failure Unit)
    (applied : applyEntries world runtime indexes = .ok (next, result)) :
    next = { runtime with world := next.world, buf := next.buf, applied := next.applied } ∧
      ∃ done rest, indexes = done ++ rest ∧ next.applied = done.reverse ++ runtime.applied ∧
        (result = .ok () → rest = []) := by
  induction indexes generalizing runtime with
  | nil =>
      cases applied
      exact ⟨rfl, [], [], rfl, rfl, fun _ => rfl⟩
  | cons index rest ih =>
      rw [applyEntries] at applied
      split at applied
      · cases applied
      · rename_i stopped failure first
        cases applied
        obtain ⟨frame, same⟩ := apply_entry_frame world runtime _ index _ first
        exact ⟨frame, [], index :: rest, rfl, same, fun ok => by cases ok⟩
      · rename_i middle first
        obtain ⟨frame, same⟩ := apply_entry_frame world runtime middle index _ first
        obtain ⟨later, done, left, split, order, all⟩ := ih middle applied
        refine ⟨?_, index :: done, left, ?_, ?_, all⟩
        · rw [later, frame]
        · rw [split]
          rfl
        · rw [order, same]
          simp

def operationOf (runtime : Runtime σ) : OperationId := ⟨runtime.nextOperationId⟩

-- The entry of the local node that a message becomes.
def localEntry (runtime : Runtime σ) (index : Nat) : LocalEntry := ⟨operationOf runtime, index, runtime.raft.currentTerm⟩

def entryOf (runtime : Runtime σ) (message : Message) : LogEntry := ⟨runtime.raft.currentTerm, message.data⟩

-- The runtime once its message has been answered.
def Runtime.answered (runtime : Runtime σ) (raft : Raft) (state : σ) (buf : Bytes) (applied : List Nat) (reply : Nat)
    (result : Except Failure Unit) : Runtime σ where
  raft := raft
  world := state
  nextOperationId := runtime.nextOperationId + 1
  operations := ∅
  buf := buf
  replies := (reply, result) :: runtime.replies
  applied := applied

-- The runtime that starts on the loop of ApplyCommitted.
def Runtime.committing (runtime : Runtime σ) (message : Message) (index : Nat) (state : σ) (buf : Bytes) : Runtime σ where
  raft := committedRaft runtime.raft (localEntry runtime index)
  world := state
  nextOperationId := runtime.nextOperationId + 1
  operations := (∅ : AList fun _ : OperationId => Pending).insert (operationOf runtime) ⟨none, message.reply⟩
  buf := buf
  replies := runtime.replies
  applied := runtime.applied

def appliedRaft (raft : Raft) (entry : LocalEntry) (result : Except Failure Unit) : Raft :=
  match result with
  | .ok () => { committedRaft raft entry with lastApplied := entry.index }
  | .error _ => committedRaft raft entry

-- How a write ends.
inductive WriteStep (runtime : Runtime σ) (message : Message) : Except Panic (Runtime σ) → Prop where
  | notLeader (role : runtime.raft.role ≠ .leader) :
      WriteStep runtime message (.ok (runtime.answered runtime.raft runtime.world runtime.buf runtime.applied message.reply
        (.error (.raft (.notLeader runtime.raft.leaderId)))))
  | unencoded (role : runtime.raft.role = .leader) (state : σ) (error : String)
      (encoded : world.encode runtime.world (entryOf runtime message) = (state, .error error)) :
      WriteStep runtime message (.ok (runtime.answered runtime.raft state [] runtime.applied message.reply
        (.error (.entrySerialisationFailed error))))
  | appendUnwinds (role : runtime.raft.role = .leader) (state : σ) (bytes : Bytes) (panic : Panic)
      (encoded : world.encode runtime.world (entryOf runtime message) = (state, .ok bytes))
      (unwound : world.append state bytes = .error panic) : WriteStep runtime message (.error panic)
  | unappended (role : runtime.raft.role = .leader) (state later : σ) (bytes : Bytes) (error : String)
      (encoded : world.encode runtime.world (entryOf runtime message) = (state, .ok bytes))
      (refused : world.append state bytes = .ok (later, .error error)) :
      WriteStep runtime message (.ok (runtime.answered runtime.raft later bytes runtime.applied message.reply
        (.error .appendFailed)))
  | overflows (role : runtime.raft.role = .leader) (state later : σ) (bytes : Bytes) (index : Nat) (panic : Panic)
      (encoded : world.encode runtime.world (entryOf runtime message) = (state, .ok bytes))
      (appended : world.append state bytes = .ok (later, .ok index)) (most : ¬ index < u64Max) :
      WriteStep runtime message (.error panic)
  | readUnwinds (role : runtime.raft.role = .leader) (state later : σ) (bytes : Bytes) (index : Nat) (panic : Panic)
      (encoded : world.encode runtime.world (entryOf runtime message) = (state, .ok bytes))
      (appended : world.append state bytes = .ok (later, .ok index)) (most : index < u64Max)
      (unwound : applyEntries world (runtime.committing message index later bytes) (unapplied runtime.raft index) =
        .error panic) : WriteStep runtime message (.error panic)
  | applies (role : runtime.raft.role = .leader) (state later : σ) (bytes : Bytes) (index : Nat) (last : Runtime σ)
      (result : Except Failure Unit)
      (encoded : world.encode runtime.world (entryOf runtime message) = (state, .ok bytes))
      (appended : world.append state bytes = .ok (later, .ok index)) (most : index < u64Max)
      (ran : applyEntries world (runtime.committing message index later bytes) (unapplied runtime.raft index) =
        .ok (last, result)) :
      WriteStep runtime message (.ok (runtime.answered (appliedRaft runtime.raft (localEntry runtime index) result) last.world
        last.buf last.applied message.reply result))

-- A write has no second way to end.
theorem write_ends (runtime after : Runtime σ) (message : Message) (outcome : Except Panic (Runtime σ))
    (ends : WriteStep world runtime message (.ok after)) (other : WriteStep world runtime message outcome) :
    outcome = .ok after := by
  cases ends with
  | notLeader role =>
      cases other with
      | notLeader => rfl
      | unencoded leader | appendUnwinds leader | unappended leader | overflows leader | readUnwinds leader | applies leader =>
          exact absurd leader role
  | unencoded leader state error encoded =>
      cases other with
      | notLeader role => exact absurd leader role
      | unencoded _ _ _ again =>
          cases encoded.symm.trans again
          rfl
      | appendUnwinds _ _ _ _ again => cases encoded.symm.trans again
      | unappended _ _ _ _ _ again => cases encoded.symm.trans again
      | overflows _ _ _ _ _ _ again => cases encoded.symm.trans again
      | readUnwinds _ _ _ _ _ _ again => cases encoded.symm.trans again
      | applies _ _ _ _ _ _ _ again => cases encoded.symm.trans again
  | unappended leader state later bytes error encoded refused =>
      cases other with
      | notLeader role => exact absurd leader role
      | unencoded _ _ _ again => cases encoded.symm.trans again
      | appendUnwinds _ _ _ _ again unwound =>
          cases encoded.symm.trans again
          cases refused.symm.trans unwound
      | unappended _ _ _ _ _ again answer =>
          cases encoded.symm.trans again
          cases refused.symm.trans answer
          rfl
      | overflows _ _ _ _ _ _ again answer =>
          cases encoded.symm.trans again
          cases refused.symm.trans answer
      | readUnwinds _ _ _ _ _ _ again answer =>
          cases encoded.symm.trans again
          cases refused.symm.trans answer
      | applies _ _ _ _ _ _ _ again answer =>
          cases encoded.symm.trans again
          cases refused.symm.trans answer
  | applies leader state later bytes index last result encoded appended most ran =>
      cases other with
      | notLeader role => exact absurd leader role
      | unencoded _ _ _ again => cases encoded.symm.trans again
      | appendUnwinds _ _ _ _ again unwound =>
          cases encoded.symm.trans again
          cases appended.symm.trans unwound
      | unappended _ _ _ _ _ again answer =>
          cases encoded.symm.trans again
          cases appended.symm.trans answer
      | overflows _ _ _ _ _ _ again answer overflow =>
          cases encoded.symm.trans again
          cases appended.symm.trans answer
          exact absurd most overflow
      | readUnwinds _ _ _ _ _ _ again answer _ unwound =>
          cases encoded.symm.trans again
          cases appended.symm.trans answer
          cases ran.symm.trans unwound
      | applies _ _ _ _ _ _ _ again answer _ outcome =>
          cases encoded.symm.trans again
          cases appended.symm.trans answer
          cases ran.symm.trans outcome
          rfl

theorem erase_only (operation : OperationId) (pending : Pending) :
    ((∅ : AList fun _ : OperationId => Pending).insert operation pending).erase operation = ∅ := by
  apply AList.ext
  simp [AList.insert, AList.erase, List.kinsert, List.kerase]

-- The runtime that has taken a message in.
def Runtime.opened (runtime : Runtime σ) (message : Message) : Runtime σ :=
  { runtime with
    nextOperationId := runtime.nextOperationId + 1
    operations := (∅ : AList fun _ : OperationId => Pending).insert (operationOf runtime) ⟨some message.data, message.reply⟩ }

def finish (operation : OperationId) (outcome : Outcome σ Unit) : Except Panic (Runtime σ) :=
  outcome.map fun (runtime, result) =>
    match result with
    | .ok () => runtime
    | .error failure => failOperation runtime operation failure

theorem handle_message_opened (fuel : Nat) (runtime : Runtime σ) (message : Message) (quiet : runtime.operations = ∅)
    (ids : runtime.nextOperationId < u64Max) :
    handleMessage world fuel runtime message =
      (drive world fuel (runtime.opened message) (.write (operationOf runtime))).map (finish (operationOf runtime)) := by
  have fresh : (⟨runtime.nextOperationId⟩ : OperationId) ∉ runtime.operations := by
    rw [quiet]
    exact AList.notMem_empty _
  rw [handleMessage, if_neg (by omega), if_neg fresh, quiet]
  rfl

theorem fail_only (runtime : Runtime σ) (operation : OperationId) (data : Option Bytes) (reply : Nat) (failure : Failure)
    (only : runtime.operations = (∅ : AList fun _ : OperationId => Pending).insert operation ⟨data, reply⟩) :
    failOperation runtime operation failure = ({ runtime with operations := ∅ }).send reply (.error failure) := by
  rw [failOperation, only, AList.lookup_insert]
  dsimp only
  rw [erase_only]

theorem append_local_only (runtime : Runtime σ) (operation : OperationId) (term : Nat) (command : Bytes) (reply : Nat)
    (only : runtime.operations = (∅ : AList fun _ : OperationId => Pending).insert operation ⟨some command, reply⟩) :
    appendLocal world runtime operation term =
      match world.encode runtime.world ⟨term, command⟩ with
      | (state, .error message) => .ok
          ({ runtime with
            world := state, operations := (∅ : AList fun _ : OperationId => Pending).insert operation ⟨none, reply⟩, buf := [] },
            .error (.entrySerialisationFailed message))
      | (state, .ok bytes) =>
          match world.append state bytes with
          | .error panic => .error panic
          | .ok (state, .error _) => .ok
              ({ runtime with
                world := state, operations := (∅ : AList fun _ : OperationId => Pending).insert operation ⟨none, reply⟩
                buf := bytes }, .error .appendFailed)
          | .ok (state, .ok index) => .ok
              ({ runtime with
                world := state, operations := (∅ : AList fun _ : OperationId => Pending).insert operation ⟨none, reply⟩
                buf := bytes }, .ok (some (.localEntriesAppended ⟨operation, index, term⟩))) := by
  rw [appendLocal, only, AList.lookup_insert]
  dsimp only
  rewrite [erase_only]
  rfl

-- What drive does with what the effect gave.
def resume (fuel : Nat) : Outcome σ (Option Event) → Option (Outcome σ Unit)
  | .error panic => some (.error panic)
  | .ok (runtime, .error failure) => some (.ok (runtime, .error failure))
  | .ok (runtime, .ok none) => some (.ok (runtime, .ok ()))
  | .ok (runtime, .ok (some event)) => drive world fuel runtime event

theorem drive_effect (fuel : Nat) (runtime : Runtime σ) (event : Event) (raft : Raft) (effect : Effect)
    (handled : handle runtime.raft event = .ok (raft, .ok (some effect))) :
    drive world (fuel + 1) runtime event = resume world fuel (execute world { runtime with raft := raft } effect) := by
  rw [drive, handled]
  rfl

theorem complete_only (fuel : Nat) (runtime : Runtime σ) (operation : OperationId) (data : Option Bytes) (reply : Nat)
    (only : runtime.operations = (∅ : AList fun _ : OperationId => Pending).insert operation ⟨data, reply⟩) :
    resume world fuel (execute world runtime (.completeOperation operation)) =
      some (.ok (({ runtime with operations := ∅ }).send reply (.ok ()), .ok ())) := by
  rw [execute, only, AList.lookup_insert]
  dsimp only
  rw [erase_only]
  rfl

-- The last two rounds: the committed entries are applied and the write is answered.
theorem commit_rounds (fuel : Nat) (runtime : Runtime σ) (message : Message) (index : Nat) (state : σ) (buf : Bytes)
    (leader : runtime.raft.role = .leader) (last : Runtime σ) (result : Except Failure Unit)
    (ran : applyEntries world (runtime.committing message index state buf) (unapplied runtime.raft index) =
      .ok (last, result)) :
    (resume world (fuel + 1) (execute world (runtime.committing message index state buf)
        (.applyCommitted (operationOf runtime) index))).map (finish (operationOf runtime)) =
      some (.ok (runtime.answered (appliedRaft runtime.raft (localEntry runtime index) result) last.world last.buf last.applied
        message.reply result)) := by
  obtain ⟨frame, _⟩ := apply_entries_frame world _ _ last result ran
  have batch : unapplied (runtime.committing message index state buf).raft index = unapplied runtime.raft index := rfl
  rw [execute, batch, ran]
  cases result with
  | error failure =>
      simp only [resume, Option.map_some, finish, Except.map]
      rw [fail_only _ (operationOf runtime) none message.reply _ (by rw [frame]; rfl), frame]
      rfl
  | ok done =>
      have handled : handle last.raft (.entriesApplied ⟨operationOf runtime, index⟩) =
          .ok ({ last.raft with lastApplied := index }, .ok (some (.completeOperation (operationOf runtime)))) := by
        rw [frame]
        exact if_pos leader
      simp only [resume]
      rw [drive_effect world fuel last _ _ _ handled,
        complete_only world fuel _ (operationOf runtime) none message.reply (by rw [frame]; rfl), frame]
      rfl

theorem committing_step (fuel : Nat) (runtime : Runtime σ) (message : Message) (state later : σ) (bytes : Bytes) (index : Nat)
    (leader : runtime.raft.role = .leader)
    (encoded : world.encode runtime.world (entryOf runtime message) = (state, .ok bytes))
    (appended : world.append state bytes = .ok (later, .ok index)) (most : index < u64Max) :
    ∃ outcome, (resume world (fuel + 1) (execute world (runtime.committing message index later bytes)
        (.applyCommitted (operationOf runtime) index))).map (finish (operationOf runtime)) = some outcome ∧
      WriteStep world runtime message outcome := by
  cases ran : applyEntries world (runtime.committing message index later bytes) (unapplied runtime.raft index) with
  | error panic =>
      have batch : unapplied (runtime.committing message index later bytes).raft index = unapplied runtime.raft index := rfl
      rw [execute, batch, ran]
      exact ⟨_, rfl, .readUnwinds leader state later bytes index panic encoded appended most ran⟩
  | ok outcome =>
      obtain ⟨last, result⟩ := outcome
      exact ⟨_, commit_rounds world fuel runtime message index later bytes leader last result ran,
        .applies leader state later bytes index last result encoded appended most ran⟩

theorem write_step (fuel : Nat) (runtime : Runtime σ) (message : Message) (alone : Alone runtime.raft)
    (quiet : runtime.operations = ∅) (ids : runtime.nextOperationId < u64Max) :
    ∃ outcome, handleMessage world (fuel + 3) runtime message = some outcome ∧ WriteStep world runtime message outcome := by
  rw [handle_message_opened world (fuel + 3) runtime message quiet ids]
  by_cases leader : runtime.raft.role = .leader
  case neg =>
    have handled : handle (runtime.opened message).raft (.write (operationOf runtime)) =
        .ok (runtime.raft, .error (.notLeader runtime.raft.leaderId)) := if_pos leader
    rw [drive, handled]
    refine ⟨_, rfl, ?_⟩
    simp only [finish, Except.map]
    rw [fail_only _ _ _ _ _ rfl]
    exact .notLeader leader
  have handled : handle (runtime.opened message).raft (.write (operationOf runtime)) =
      .ok (runtime.raft, .ok (some (.appendLocal (operationOf runtime) runtime.raft.currentTerm runtime.raft.lastLogIndex))) :=
    if_neg (not_not.mpr leader)
  rw [drive_effect world _ _ _ _ _ handled, execute, append_local_only world _ _ _ message.data message.reply rfl]
  cases encoded : world.encode runtime.world (entryOf runtime message) with
  | mk state answer =>
      have same : world.encode (runtime.opened message).world ⟨runtime.raft.currentTerm, message.data⟩ = (state, answer) :=
        encoded
      simp only [same]
      cases answer with
      | error error =>
          refine ⟨_, rfl, ?_⟩
          simp only [finish, Except.map]
          rw [fail_only _ (operationOf runtime) none message.reply _ rfl]
          exact .unencoded leader state error encoded
      | ok bytes =>
          dsimp only
          cases appended : world.append state bytes with
          | error panic =>
              exact ⟨_, rfl, .appendUnwinds leader state bytes panic encoded appended⟩
          | ok outcome =>
              obtain ⟨later, answer⟩ := outcome
              cases answer with
              | error error =>
                  refine ⟨_, rfl, ?_⟩
                  simp only [finish, Except.map]
                  rw [fail_only _ (operationOf runtime) none message.reply _ rfl]
                  exact .unappended leader state later bytes error encoded appended
              | ok index =>
                  simp only [resume]
                  by_cases most : index < u64Max
                  case neg =>
                    have unwound := alone_overflows runtime.raft (localEntry runtime index) leader alone most
                    have handled : handle runtime.raft (.localEntriesAppended (localEntry runtime index)) = _ := unwound
                    rw [drive]
                    simp only [Runtime.opened]
                    rw [show (⟨operationOf runtime, index, runtime.raft.currentTerm⟩ : LocalEntry) = localEntry runtime index
                      from rfl, handled]
                    exact ⟨_, rfl, .overflows leader state later bytes index _ encoded appended most⟩
                  have handled : handle runtime.raft (.localEntriesAppended (localEntry runtime index)) = _ :=
                    alone_appends runtime.raft (localEntry runtime index) alone leader most
                  have round := drive_effect world (fuel + 1) { runtime with
                    world := later, nextOperationId := runtime.nextOperationId + 1, buf := bytes
                    operations := (∅ : AList fun _ : OperationId => Pending).insert (operationOf runtime) ⟨none, message.reply⟩ }
                    _ _ _ handled
                  obtain ⟨outcome, driven, step⟩ :=
                    committing_step world fuel runtime message state later bytes index leader encoded appended most
                  exact ⟨outcome, (congrArg (Option.map (finish (operationOf runtime))) round).trans driven, step⟩

end Drive

end RaftLog.Drive
