import RaftLog.Lib.Machine
import RaftLog.Lib.Text

set_option autoImplicit false

namespace RaftLog.Grpc

open Lib

structure WriteRequest where
  key : String
  value : String
deriving DecidableEq, Repr

-- What is documented of a vector's capacity.
structure Allocator where
  initial : Nat
  grow : Nat → Nat → Nat
  initial_enough : 1024 ≤ initial
  grow_enough : ∀ capacity needed, needed ≤ grow capacity needed

structure Buffer where
  bytes : Bytes
  capacity : Nat
  fits : bytes.length ≤ capacity

section Vector

variable (allocator : Allocator)

def withCapacity : Buffer := ⟨[], allocator.initial, Nat.zero_le _⟩

def Buffer.extend (buffer : Buffer) (more : Bytes) : Buffer where
  bytes := buffer.bytes ++ more
  capacity :=
    if (buffer.bytes ++ more).length ≤ buffer.capacity then buffer.capacity
    else allocator.grow buffer.capacity (buffer.bytes ++ more).length
  fits := by
    split
    · assumption
    · exact allocator.grow_enough _ _

def Buffer.resize (buffer : Buffer) (length : Nat) : Buffer :=
  if length ≤ buffer.bytes.length then
    ⟨buffer.bytes.take length, buffer.capacity, (List.length_take_le' _ _).trans buffer.fits⟩
  else buffer.extend allocator (List.replicate (length - buffer.bytes.length) 0)

end Vector

-- The pool, the buffers that are with the runtime, and the data of every message sent.
structure Server where
  pool : List Buffer
  lent : List Buffer
  sent : List (WriteRequest × Bytes)

inductive Action where
  | write (request : WriteRequest) (pick : Nat)
  | giveBack (pick : Nat)
deriving DecidableEq, Repr

section Transport

variable (encode : WriteRequest → Bytes) (allocator : Allocator)

-- Pool::pull_owned: any buffer of the pool, or a new one when there is none.
def Server.pull (server : Server) (pick : Nat) : Option (Buffer × List Buffer) :=
  match server.pool with
  | [] => some (withCapacity allocator, [])
  | pool => pool[pick]?.map fun buffer => (buffer, pool.eraseIdx pick)

-- The buffer that ClientTransport::write sends.
def fill (buffer : Buffer) (request : WriteRequest) : Buffer :=
  let buffer := if (encode request).length > buffer.capacity then buffer.resize allocator (encode request).length else buffer
  buffer.extend allocator (encode request)

-- The runtime gives a buffer back as it got it, whether the write went well or not.
def step (server : Server) : Action → Option Server
  | .write request pick => (server.pull allocator pick).map fun (buffer, pool) =>
      let buffer := fill encode allocator buffer request
      ⟨pool, buffer :: server.lent, (request, buffer.bytes) :: server.sent⟩
  | .giveBack pick => server.lent[pick]?.map fun buffer =>
      { server with pool := buffer :: server.pool, lent := server.lent.eraseIdx pick }

def newServer : Server := ⟨List.replicate 5 (withCapacity allocator), [], []⟩

def machine : Machine Server Action := ⟨fun server => server = newServer allocator, step encode allocator⟩

def Faithful (server : Server) : Prop := ∀ request data, (request, data) ∈ server.sent → data = encode request

-- The call gets an empty buffer that need not grow.
def clean (server : Server) : Action → Bool
  | .write request pick => (server.pull allocator pick).all fun (buffer, _) =>
      buffer.bytes.isEmpty && decide ((encode request).length ≤ buffer.capacity)
  | .giveBack _ => true

theorem fill_bytes (buffer : Buffer) (request : WriteRequest) :
    (fill encode allocator buffer request).bytes =
      if (encode request).length > buffer.capacity then
        buffer.bytes ++ List.replicate ((encode request).length - buffer.bytes.length) 0 ++ encode request
      else buffer.bytes ++ encode request := by
  unfold fill
  split
  · rename_i more
    have grows : ¬ (encode request).length ≤ buffer.bytes.length := by
      have fits := buffer.fits
      omega
    rw [Buffer.resize, if_neg grows]
    rfl
  · rfl

theorem fill_faithful_iff (buffer : Buffer) (request : WriteRequest) :
    (fill encode allocator buffer request).bytes = encode request ↔
      buffer.bytes = [] ∧ (encode request).length ≤ buffer.capacity := by
  rw [fill_bytes]
  constructor
  · intro same
    have length := congrArg List.length same
    split at length
    · rename_i more
      simp only [List.length_append, List.length_replicate] at length
      have fits := buffer.fits
      omega
    · rename_i enough
      rw [List.length_append] at length
      exact ⟨List.length_eq_zero_iff.mp (by omega), Nat.le_of_not_lt enough⟩
  · rintro ⟨empty, enough⟩
    rw [if_neg (Nat.not_lt.mpr enough), empty, List.nil_append]

theorem clean_step (server next : Server) (action : Action) (moves : step encode allocator server action = some next) :
    Faithful encode next ↔ Faithful encode server ∧ clean encode allocator server action = true := by
  cases action with
  | write request pick =>
      simp only [step, Option.map_eq_some_iff] at moves
      obtain ⟨⟨buffer, pool⟩, pulled, rfl⟩ := moves
      have here := fill_faithful_iff encode allocator buffer request
      simp only [Faithful, List.mem_cons, clean, pulled, Option.all_some, Bool.and_eq_true, List.isEmpty_iff,
        decide_eq_true_eq, ← here]
      constructor
      · intro all
        exact ⟨fun other data before => all other data (.inr before), all request _ (.inl rfl)⟩
      · rintro ⟨before, own⟩ other data (same | earlier)
        · cases same
          exact own
        · exact before other data earlier
  | giveBack pick =>
      simp only [step, Option.map_eq_some_iff] at moves
      obtain ⟨buffer, _, rfl⟩ := moves
      simp [Faithful, clean]

theorem faithful_iff (server : Server) (reach : Reachable (machine encode allocator) server) :
    Faithful encode server ↔
      Run (machine encode allocator) (fun server action => clean encode allocator server action = true) server := by
  constructor
  · intro faithful
    induction reach with
    | start server starts => exact .start server starts
    | step server next action _ _ moves ih =>
        obtain ⟨before, meets⟩ := (clean_step encode allocator server next action moves).mp faithful
        exact .step server next action (ih before) meets moves
  · intro run
    apply run_invariant (machine encode allocator) _ (Faithful encode) ?_ ?_ server run
    · rintro _ rfl
      simp [Faithful, newServer]
    · intro server action next _ before meets moves
      exact (clean_step encode allocator server next action moves).mpr ⟨before, meets⟩

end Transport

def varint : Nat → Nat → Bytes
  | 0, _ => []
  | fuel + 1, value =>
      if value < 128 then [UInt8.ofNat value] else UInt8.ofNat (value % 128 + 128) :: varint fuel (value / 128)

-- An empty string is not encoded.
def stringField (number : Nat) (text : String) : Bytes :=
  if text = "" then [] else UInt8.ofNat (number * 8 + 2) :: (varint 10 (textBytes text).length ++ textBytes text)

def protobuf (request : WriteRequest) : Bytes := stringField 1 request.key ++ stringField 2 request.value

def doubling : Allocator := ⟨1024, fun capacity needed => max (2 * capacity) needed, le_rfl, fun _ _ => le_max_right _ _⟩

def serverAfter (actions : List Action) : Server :=
  (exec (machine protobuf doubling) (newServer doubling) actions).getD (newServer doubling)

theorem server_after_reachable (actions : List Action)
    (runs : (exec (machine protobuf doubling) (newServer doubling) actions).isSome = true) :
    Reachable (machine protobuf doubling) (serverAfter actions) :=
  exec_reaches (machine protobuf doubling) actions _ _ (.start _ rfl) runs

def setX : WriteRequest := ⟨"x", "1"⟩
def setY : WriteRequest := ⟨"y", "22"⟩

-- Two calls with buffers of their own.
theorem faithful_two_buffers : Faithful protobuf (serverAfter [.write setX 4, .write setY 3]) :=
  (faithful_iff protobuf doubling _ (server_after_reachable _ (by decide +kernel))).mpr
    (.step _ _ (.write setY 3) (.step _ _ (.write setX 4) (.start _ rfl) (by decide +kernel) rfl) (by decide +kernel) rfl)

-- The second call gets the buffer of the first, which nobody has cleared.
theorem recycled_prefix :
    ¬ ∀ server, Reachable (machine protobuf doubling) server → Faithful protobuf server := by
  intro always
  have faithful := always (serverAfter [.write setX 4, .giveBack 0, .write setY 0])
    (server_after_reachable _ (by decide +kernel)) setY (protobuf setX ++ protobuf setY) (by decide +kernel)
  exact absurd faithful (by decide +kernel)

end RaftLog.Grpc
