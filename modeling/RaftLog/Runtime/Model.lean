import RaftLog.Core.New
import RaftLog.Lib.Bytes
import RaftLog.Replication.Model

set_option autoImplicit false

namespace RaftLog.Drive

open Lib Replication

-- What the runtime calls: the codec, the log, the hard state's file and the FSM. An
-- answer is a value or the text of an error; a call of the log may unwind.
structure World (σ : Type) where
  encode : σ → LogEntry → σ × Except String Bytes
  append : σ → Bytes → Except Panic (σ × Except String Nat)
  read : σ → Nat → Bytes → Except Panic (σ × Bytes × Except String Unit)
  decode : σ → Bytes → σ × Except String LogEntry
  apply : σ → Bytes → σ × Except String Unit
  saveState : σ → State → σ × Except String Unit

inductive Failure where
  | raft (error : Error)
  | appendFailed
  | entrySerialisationFailed (message : String)
  | persistStateFailed (message : String)
  | readCommittedEntryFailed (message : String)
  | entryDeserialisationFailed (message : String)
  | applyCommittedEntryFailed (message : String)
deriving DecidableEq, Repr

-- handle_message inserts no operation of another kind. A reply channel is a number.
structure Pending where
  data : Option Bytes
  reply : Nat
deriving DecidableEq, Repr

-- The source's fields; what was sent on the channels and the indexes whose apply
-- returned Ok, newest first.
structure Runtime (σ : Type) where
  raft : Raft
  world : σ
  nextOperationId : Nat
  operations : AList fun _ : OperationId => Pending
  buf : Bytes
  replies : List (Nat × Except Failure Unit)
  applied : List Nat

-- RuntimeMessage::Write
structure Message where
  data : Bytes
  reply : Nat
deriving DecidableEq, Repr

abbrev Outcome (σ α : Type) := Except Panic (Runtime σ × Except Failure α)

section Drive

variable {σ : Type} (world : World σ)

-- One round of the loop of ApplyCommitted.
def applyEntry (runtime : Runtime σ) (index : Nat) : Outcome σ Unit :=
  match world.read runtime.world index [] with
  | .error panic => .error panic
  | .ok (state, buf, .error message) =>
      .ok ({ runtime with world := state, buf := buf }, .error (.readCommittedEntryFailed message))
  | .ok (state, buf, .ok ()) =>
      match world.decode state buf with
      | (state, .error message) =>
          .ok ({ runtime with world := state, buf := buf }, .error (.entryDeserialisationFailed message))
      | (state, .ok entry) =>
          match world.apply state entry.command with
          | (state, .error message) =>
              .ok ({ runtime with world := state, buf := buf }, .error (.applyCommittedEntryFailed message))
          | (state, .ok ()) =>
              .ok ({ runtime with world := state, buf := buf, applied := index :: runtime.applied }, .ok ())

def applyEntries (runtime : Runtime σ) : List Nat → Outcome σ Unit
  | [] => .ok (runtime, .ok ())
  | index :: rest =>
      match applyEntry world runtime index with
      | .error panic => .error panic
      | .ok (runtime, .error failure) => .ok (runtime, .error failure)
      | .ok (runtime, .ok ()) => applyEntries runtime rest

-- The indexes of first_unapplied..=through.
def unapplied (raft : Raft) (through : Nat) : List Nat :=
  List.range' (saturatingAdd raft.lastApplied 1) (through + 1 - saturatingAdd raft.lastApplied 1)

def persistHardState (runtime : Runtime σ) (state : State) : Runtime σ × Except Failure Unit :=
  match world.saveState runtime.world state with
  | (saved, .error message) => ({ runtime with world := saved }, .error (.persistStateFailed message))
  | (saved, .ok ()) => ({ runtime with world := saved }, .ok ())

def appendLocal (runtime : Runtime σ) (operationId : OperationId) (term : Nat) : Outcome σ (Option Event) :=
  match runtime.operations.lookup operationId with
  | none => .error ⟨"newly inserted operation must exist"⟩
  | some ⟨none, _⟩ => .error ⟨"write data must exist before it is appended locally"⟩
  | some ⟨some command, reply⟩ =>
      let operations := (runtime.operations.erase operationId).insert operationId ⟨none, reply⟩
      match world.encode runtime.world ⟨term, command⟩ with
      | (state, .error message) =>
          .ok ({ runtime with world := state, operations := operations, buf := [] }, .error (.entrySerialisationFailed message))
      | (state, .ok bytes) =>
          match world.append state bytes with
          | .error panic => .error panic
          | .ok (state, .error _) =>
              .ok ({ runtime with world := state, operations := operations, buf := bytes }, .error .appendFailed)
          | .ok (state, .ok index) =>
              .ok ({ runtime with world := state, operations := operations, buf := bytes },
                .ok (some (.localEntriesAppended ⟨operationId, index, term⟩)))

def Runtime.send (runtime : Runtime σ) (reply : Nat) (result : Except Failure Unit) : Runtime σ :=
  { runtime with replies := (reply, result) :: runtime.replies }

-- The arms that are left unwritten unwind, the two that save first once they have saved.
def execute (runtime : Runtime σ) : Effect → Outcome σ (Option Event)
  | .sendRequestVotes hardState _ _ =>
      match persistHardState world runtime hardState with
      | (runtime, .error failure) => .ok (runtime, .error failure)
      | (_, .ok ()) => .error ⟨"not yet implemented: send RequestVote through the Raft transport"⟩
  | .sendAppendEntries _ _ => .ok (runtime, .ok none)
  | .sendRequestVoteResponse (some hardState) _ _ =>
      match persistHardState world runtime hardState with
      | (runtime, .error failure) => .ok (runtime, .error failure)
      | (_, .ok ()) => .error ⟨"not yet implemented: send RequestVoteResponse through the Raft transport"⟩
  | .sendRequestVoteResponse none _ _ =>
      .error ⟨"not yet implemented: send RequestVoteResponse through the Raft transport"⟩
  | .sendHeartbeat _ _ | .sendHeartbeatResponse _ _ _ _ | .persistEntries _ _ _ _ _ => .error ⟨"not yet implemented"⟩
  | .applyCommitted operationId through =>
      match applyEntries world runtime (unapplied runtime.raft through) with
      | .error panic => .error panic
      | .ok (runtime, .error failure) => .ok (runtime, .error failure)
      | .ok (runtime, .ok ()) => .ok (runtime, .ok (some (.entriesApplied ⟨operationId, through⟩)))
  | .rejectAppendEntries operationId _ _ =>
      match runtime.operations.lookup operationId with
      | none => .error ⟨"newly inserted operation must exist"⟩
      | some _ => .error ⟨"operation must exist for append entries"⟩
  | .appendLocal operationId term _ => appendLocal world runtime operationId term
  | .completeOperation operationId =>
      match runtime.operations.lookup operationId with
      | none => .error ⟨"newly inserted operation must exist"⟩
      | some ⟨_, reply⟩ =>
          .ok (({ runtime with operations := runtime.operations.erase operationId }).send reply (.ok ()), .ok none)

-- `none` is a loop cut short by the fuel.
def drive : Nat → Runtime σ → Event → Option (Outcome σ Unit)
  | 0, _, _ => none
  | fuel + 1, runtime, event =>
      match handle runtime.raft event with
      | .error panic => some (.error panic)
      | .ok (raft, .error error) => some (.ok ({ runtime with raft := raft }, .error (.raft error)))
      | .ok (raft, .ok none) => some (.ok ({ runtime with raft := raft }, .ok ()))
      | .ok (raft, .ok (some effect)) =>
          match execute world { runtime with raft := raft } effect with
          | .error panic => some (.error panic)
          | .ok (runtime, .error failure) => some (.ok (runtime, .error failure))
          | .ok (runtime, .ok none) => some (.ok (runtime, .ok ()))
          | .ok (runtime, .ok (some event)) => drive fuel runtime event

def failOperation (runtime : Runtime σ) (operationId : OperationId) (failure : Failure) : Runtime σ :=
  match runtime.operations.lookup operationId with
  | none => runtime
  | some ⟨_, reply⟩ => ({ runtime with operations := runtime.operations.erase operationId }).send reply (.error failure)

def handleMessage (fuel : Nat) (runtime : Runtime σ) (message : Message) : Option (Except Panic (Runtime σ)) :=
  if runtime.nextOperationId + 1 > u64Max then some (.error ⟨"operation ID space exhausted"⟩)
  else if (⟨runtime.nextOperationId⟩ : OperationId) ∈ runtime.operations then
    some (.error ⟨"assertion failed: replaced.is_none()"⟩)
  else
    let operationId : OperationId := ⟨runtime.nextOperationId⟩
    let runtime := { runtime with
      nextOperationId := runtime.nextOperationId + 1
      operations := runtime.operations.insert operationId ⟨some message.data, message.reply⟩ }
    (drive world fuel runtime (.write operationId)).map fun outcome => outcome.map fun (runtime, result) =>
      match result with
      | .ok () => runtime
      | .error failure => failOperation runtime operationId failure

def handleAll (fuel : Nat) (runtime : Runtime σ) : List Message → Option (Except Panic (Runtime σ))
  | [] => some (.ok runtime)
  | message :: rest =>
      match handleMessage world fuel runtime message with
      | some (.ok runtime) => handleAll fuel runtime rest
      | other => other

end Drive

-- Runtime::new, with a role of the tests' choice.
def newRuntime {σ : Type} (id : NodeId) (voters : List NodeId) (nextOffset : Nat) (state : State) (role : Role) (world : σ) :
    Runtime σ where
  raft := { newRaft id voters nextOffset state with role := role }
  world := world
  nextOperationId := 1
  operations := ∅
  buf := []
  replies := []
  applied := []

end RaftLog.Drive
