import Mathlib.Data.List.Basic

set_option autoImplicit false

namespace RaftLog.Lib

-- An object answers the operations of its callers, and may choose how.
structure Object (State Op Reply : Type) where
  start : State → Prop
  step : State → Op → Reply → State → Prop

section Refinement

variable {Concrete Abstract Op Reply : Type}

-- What callers can see, newest first, and where it leads.
inductive Trace (object : Object Concrete Op Reply) : List (Op × Reply) → Concrete → Prop where
  | start (state : Concrete) (starts : object.start state) : Trace object [] state
  | step (trace : List (Op × Reply)) (state next : Concrete) (op : Op) (reply : Reply) (before : Trace object trace state)
      (moves : object.step state op reply next) : Trace object ((op, reply) :: trace) next

-- Every step of the one object is a step of the other with the same reply.
structure Simulates (concrete : Object Concrete Op Reply) (abstract : Object Abstract Op Reply)
    (related : Concrete → Abstract → Prop) : Prop where
  start : ∀ state, concrete.start state → ∃ model, abstract.start model ∧ related state model
  step : ∀ state model op reply next, related state model → concrete.step state op reply next →
    ∃ after, abstract.step model op reply after ∧ related next after

theorem trace_simulated (concrete : Object Concrete Op Reply) (abstract : Object Abstract Op Reply)
    (related : Concrete → Abstract → Prop) (simulates : Simulates concrete abstract related) (trace : List (Op × Reply))
    (state : Concrete) (run : Trace concrete trace state) : ∃ model, Trace abstract trace model ∧ related state model := by
  induction run with
  | start state starts =>
      obtain ⟨model, begins, same⟩ := simulates.start state starts
      exact ⟨model, .start model begins, same⟩
  | step trace state next op reply _ moves ih =>
      obtain ⟨model, before, same⟩ := ih
      obtain ⟨after, follows, later⟩ := simulates.step state model op reply next same moves
      exact ⟨after, .step trace model after op reply before follows, later⟩

end Refinement

-- What a run that is written out comes to.
theorem comes_to {α : Type} (run : Option α) (fallback : α) (ends : run.isSome = true) : run = some (run.getD fallback) := by
  cases run with
  | none => cases ends
  | some value => rfl

-- A sequence of values that are numbered on from a first one, and whose end can be cut off.
section Sequence

variable {α : Type}

inductive SequenceOp (α : Type) where
  | append (value : α)
  | read (number : Nat) (into : α)
  | next
  | truncate (number : Nat)
  | start
  | close
  | drop
  | crash
deriving DecidableEq, Repr

inductive SequenceReply (α : Type) where
  | number (number : Nat)
  | refused
  | value (value : α)
  | missing
  | done
deriving DecidableEq, Repr

inductive SequenceStep (first : Nat) (values : List α) : SequenceOp α → SequenceReply α → List α → Prop where
  | appended (value : α) : SequenceStep first values (.append value) (.number (first + values.length)) (values ++ [value])
  | refused (value : α) : SequenceStep first values (.append value) .refused values
  | read (number : Nat) (into value : α) (found : values[number]? = some value) :
      SequenceStep first values (.read (first + number) into) (.value value) values
  | missing (number : Nat) (into : α) (outside : number < first ∨ first + values.length ≤ number) :
      SequenceStep first values (.read number into) .missing values
  | next : SequenceStep first values .next (.number (first + values.length)) values
  -- what is numbered up to the given number stays
  | truncated (number kept : Nat) (stays : values.length ≤ kept ∨ number < first + kept) :
      SequenceStep first values (.truncate number) .done (values.take kept)
  | started : SequenceStep first values .start .done values
  | closed : SequenceStep first values .close .done values
  | dropped : SequenceStep first values .drop .done values
  | crashed : SequenceStep first values .crash .done values

def sequence (α : Type) (first : Nat) : Object (List α) (SequenceOp α) (SequenceReply α) :=
  ⟨fun values => values = [], SequenceStep first⟩

end Sequence

-- One sequence that only grows, of which every reader has seen a beginning that never gets
-- shorter.
section Shared

structure Shared (Reader α : Type) where
  values : List α
  seen : Reader → Nat

inductive SharedOp (Reader Action : Type) where
  | act (action : Action)
  | observe (reader : Reader)
deriving DecidableEq, Repr

variable {Reader Action α : Type} [DecidableEq Reader]

inductive SharedStep (shared : Shared Reader α) : SharedOp Reader Action → List α → Shared Reader α → Prop where
  | acted (action : Action) (more : List α) : SharedStep shared (.act action) [] { shared with values := shared.values ++ more }
  | observed (reader : Reader) (count : Nat) (grows : shared.seen reader ≤ count) (within : count ≤ shared.values.length) :
      SharedStep shared (.observe reader) (shared.values.take count)
        { shared with seen := Function.update shared.seen reader count }

def sharedLog (Reader Action α : Type) [DecidableEq Reader] : Object (Shared Reader α) (SharedOp Reader Action) (List α) :=
  ⟨fun shared => shared.values = [] ∧ ∀ reader, shared.seen reader = 0, SharedStep⟩

end Shared

-- Of lists any two of which begin alike as far as both go, one is the longest.
theorem longest_prefix {α : Type} (lists : List (List α))
    (comparable : ∀ left ∈ lists, ∀ right ∈ lists, left <+: right ∨ right <+: left) :
    lists = [] ∨ ∃ longest ∈ lists, ∀ other ∈ lists, other <+: longest := by
  induction lists with
  | nil => exact .inl rfl
  | cons first rest ih =>
      right
      have tail := ih fun left leftMember right rightMember =>
        comparable left (List.mem_cons_of_mem _ leftMember) right (List.mem_cons_of_mem _ rightMember)
      rcases tail with rfl | ⟨longest, member, all⟩
      · exact ⟨first, List.mem_cons_self, fun other single => List.mem_singleton.mp single ▸ List.prefix_rfl⟩
      rcases comparable first List.mem_cons_self longest (List.mem_cons_of_mem _ member) with shorter | longer
      · refine ⟨longest, List.mem_cons_of_mem _ member, fun other listed => ?_⟩
        rcases List.mem_cons.mp listed with rfl | later
        · exact shorter
        · exact all other later
      · refine ⟨first, List.mem_cons_self, fun other listed => ?_⟩
        rcases List.mem_cons.mp listed with rfl | later
        · exact List.prefix_rfl
        · exact (all other later).trans longer

end RaftLog.Lib
