import RaftLog.Election.Model

set_option autoImplicit false

namespace RaftLog.Replication

open Lib

structure LogEntry where
  term : Nat
  command : List UInt8
deriving DecidableEq, Repr

-- Entry number `index` of the log counts from 1; nothing stands at index 0.
def entryTerm (log : List LogEntry) : Nat → Option Nat
  | 0 => none
  | index + 1 => log[index]?.map LogEntry.term

def termAt (log : List LogEntry) (index : Nat) : Nat := (entryTerm log index).getD 0

def lastTerm (log : List LogEntry) : Nat := (log.getLast?.map LogEntry.term).getD 0

structure Node where
  raft : Raft
  log : List LogEntry
  completed : List OperationId

inductive Packet where
  | vote (packet : Election.Packet)
  | heartbeat (target : NodeId) (request : HeartbeatRequest)
  | heartbeatResponse (target : NodeId) (received : ReceivedHeartbeatResponse)
  | appendEntries (target : NodeId) (operationId : OperationId) (request : AppendEntriesRequest) (entries : List LogEntry)
  | appendEntriesResponse (target : NodeId) (received : ReceivedAppendEntriesResponse)
deriving DecidableEq, Repr

-- What the runtime keeps of the message it is driving.
inductive Operation where
  | write (command : List UInt8)
  | appendEntries (entries : List LogEntry)
  | other
deriving DecidableEq, Repr

def truncate (log : List LogEntry) : Option Nat → List LogEntry
  | some index => log.take index
  | none => log

def Node.appendRequest (node : Node) (target : ReplicationTarget) : AppendEntriesRequest :=
  ⟨node.raft.currentTerm, target.leaderId, target.lastLogIndex, termAt node.log target.lastLogIndex,
    target.leaderCommitIndex⟩

-- Runtime::execute. The arms that the source leaves unwritten do what their effect says.
def execute (node : Node) (operation : Operation) : Effect → Except Panic (Node × List Packet × Option Event)
  | .sendRequestVotes _ peers request =>
      .ok (node, peers.map fun peer => .vote (.voteRequest peer request), none)
  | .sendRequestVoteResponse _ peer response =>
      .ok (node, [.vote (.voteResponse peer ⟨node.raft.id, response⟩)], none)
  | .sendHeartbeat peers request => .ok (node, peers.map fun peer => .heartbeat peer request, none)
  | .sendHeartbeatResponse peer response _ _ =>
      .ok (node, [.heartbeatResponse peer ⟨node.raft.id, response⟩], none)
  | .sendAppendEntries operationId targets =>
      .ok (node, targets.map fun target => .appendEntries target.peer operationId (node.appendRequest target)
        (node.log.drop target.lastLogIndex), none)
  | .rejectAppendEntries operationId peer response =>
      .ok (node, [.appendEntriesResponse peer ⟨operationId, node.raft.id, response⟩], none)
  | .persistEntries operationId peer response truncateAfter leaderCommitIndex =>
      match operation with
      | .appendEntries entries =>
          let log := truncate node.log truncateAfter ++ entries
          let response := { response with lastLogIndex := log.length, lastLogTerm := lastTerm log }
          .ok ({ node with log := log }, [.appendEntriesResponse peer ⟨operationId, node.raft.id, response⟩],
            some (.entriesPersisted ⟨operationId, log.length, lastTerm log, leaderCommitIndex⟩))
      | _ => .error ⟨"operation must exist for append entries"⟩
  | .applyCommitted operationId through => .ok (node, [], some (.entriesApplied ⟨operationId, through⟩))
  | .appendLocal operationId term _ =>
      match operation with
      | .write command =>
          let log := node.log ++ [⟨term, command⟩]
          .ok ({ node with log := log }, [], some (.localEntriesAppended ⟨operationId, log.length, term⟩))
      | _ => .error ⟨"AppendLocal effect must reference a write operation"⟩
  | .completeOperation operationId => .ok ({ node with completed := operationId :: node.completed }, [], none)

-- Runtime::drive: an event, its effect, and the event that executing the effect gave.
-- An error returned by the handler ends the loop and keeps what was mutated. `none`
-- is a loop cut short by the fuel.
def drive : Nat → Node → Operation → Event → Option (Except Panic (Node × List Packet))
  | 0, _, _, _ => none
  | fuel + 1, node, operation, event =>
      match handle node.raft event with
      | .error panic => some (.error panic)
      | .ok (raft, .ok (some effect)) =>
          match execute { node with raft := raft } operation effect with
          | .error panic => some (.error panic)
          | .ok (next, packets, none) => some (.ok (next, packets))
          | .ok (next, packets, some following) =>
              (drive fuel next operation following).map fun result =>
                result.map fun (final, more) => (final, packets ++ more)
      | .ok (raft, _) => some (.ok ({ node with raft := raft }, []))

-- No event leads to more than two others.
def rounds : Nat := 3

-- Nothing leaves `sent`: a packet may be delivered late, twice, out of order or never.
structure Cluster where
  nodes : NodeId → Node
  sent : List Packet

inductive Action where
  | electionTimeout (node : NodeId)
  | heartbeatTimeout (node : NodeId)
  | write (node : NodeId) (operationId : OperationId) (command : List UInt8)
  | applied (node : NodeId) (entries : AppliedEntries)
  | deliver (packet : Packet)
deriving DecidableEq, Repr

def Packet.target : Packet → NodeId
  | .vote (.voteRequest target _) | .vote (.voteResponse target _) => target
  | .heartbeat target _ | .heartbeatResponse target _ => target
  | .appendEntries target _ _ _ | .appendEntriesResponse target _ => target

def Packet.operation : Packet → Operation
  | .appendEntries _ _ _ entries => .appendEntries entries
  | _ => .other

-- The event a delivered packet becomes; an append is completed with the receiver's own
-- entry at the previous index.
def Packet.event (log : List LogEntry) : Packet → Event
  | .vote (.voteRequest _ request) => .requestVote request
  | .vote (.voteResponse _ received) => .voteResponse received
  | .heartbeat _ request => .heartbeat request
  | .heartbeatResponse _ received => .heartbeatResponse received
  | .appendEntries _ operationId request _ => .appendEntries ⟨operationId, request, entryTerm log request.prevLogIndex⟩
  | .appendEntriesResponse _ received => .appendEntriesResponse received

def Cluster.become (cluster : Cluster) (node : NodeId) (next : Node) (packets : List Packet) : Cluster :=
  ⟨Function.update cluster.nodes node next, cluster.sent ++ packets⟩

@[simp] theorem become_self (cluster : Cluster) (node : NodeId) (next : Node) (packets : List Packet) :
    (cluster.become node next packets).nodes node = next := Function.update_self _ _ _

theorem become_other (cluster : Cluster) (node other : NodeId) (next : Node) (packets : List Packet)
    (apart : other ≠ node) : (cluster.become node next packets).nodes other = cluster.nodes other :=
  Function.update_of_ne apart _ _

def Cluster.act (cluster : Cluster) (voters : List NodeId) (node : NodeId) (operation : Operation) (event : Event) :
    Option Cluster :=
  if node ∈ voters then
    match drive rounds (cluster.nodes node) operation event with
    | some (.ok (next, packets)) => some (cluster.become node next packets)
    | _ => none
  else none

def step (voters : List NodeId) (cluster : Cluster) : Action → Option Cluster
  | .electionTimeout node => cluster.act voters node .other .electionTimeout
  | .heartbeatTimeout node => cluster.act voters node .other .heartbeatTimeout
  | .write node operationId command => cluster.act voters node (.write command) (.write operationId)
  | .applied node entries => cluster.act voters node .other (.entriesApplied entries)
  | .deliver packet =>
      if packet ∈ cluster.sent then
        cluster.act voters packet.target packet.operation (packet.event (cluster.nodes packet.target).log)
      else none

def booted (voters : List NodeId) (node : NodeId) (state : State) : Node := ⟨newRaft node voters 1 state, [], []⟩

structure Start (voters : List NodeId) (cluster : Cluster) : Prop where
  nodes : ∀ node, ∃ state, cluster.nodes node = booted voters node state
  sent : cluster.sent = []

def machine (voters : List NodeId) : Machine Cluster Action := ⟨Start voters, step voters⟩

def freshCluster (voters : List NodeId) : Cluster := ⟨fun node => booted voters node ⟨0, none⟩, []⟩

theorem fresh_cluster_start (voters : List NodeId) : Start voters (freshCluster voters) :=
  ⟨fun _ => ⟨⟨0, none⟩, rfl⟩, rfl⟩

end RaftLog.Replication
