import RaftLog.Lib.Refinement
import RaftLog.SegmentLog.Trimming
import RaftLog.SegmentLog.ReadBack

set_option autoImplicit false

namespace RaftLog.Sequence

open Lib SegmentLog Trimming

-- A log directory, and the log that a process has open on it.
structure Holder where
  dir : Dir
  log : Option Log

section Perform

variable (cfg : Config)

-- There is no step where a thread unwinds. A drop runs the destructors, a crash does not.
def perform (holder : Holder) : SequenceOp Bytes → Option (SequenceReply Bytes × Holder)
  | .start =>
      match holder.log with
      | some _ => none
      | none =>
          match Log.new cfg holder.dir with
          | (writes, .ok log) => some (.done, ⟨holder.dir.applyAll writes, some log⟩)
          | (_, .error _) => none
  | .append record => holder.log.bind fun log =>
      match log.append cfg holder.dir record with
      | (next, writes, .ok off) => some (.number off, ⟨holder.dir.applyAll writes, some next⟩)
      | (next, writes, .error (.io _ _)) => some (.refused, ⟨holder.dir.applyAll writes, some next⟩)
      | (_, _, .error (.panic _)) => none
  | .read off buf => holder.log.bind fun log =>
      match log.read holder.dir off buf with
      | (next, writes, found, .ok ()) => some (.value found, ⟨holder.dir.applyAll writes, some next⟩)
      | (next, writes, _, .error (.io _ _)) => some (.missing, ⟨holder.dir.applyAll writes, some next⟩)
      | (_, _, _, .error (.panic _)) => none
  | .next => holder.log.bind fun log =>
      match log.nextOffset with
      | .ok off => some (.number off, holder)
      | .error _ => none
  | .truncate off => holder.log.bind fun log =>
      let site := (⟨holder.dir, log⟩ : Site).truncate off
      some (.done, ⟨site.dir, some site.log⟩)
  | .close => holder.log.bind fun log => some (.done, ⟨holder.dir.applyAll log.close.2.1, none⟩)
  | .drop => holder.log.bind fun log => some (.done, ⟨holder.dir.applyAll log.dropWrites, none⟩)
  | .crash => holder.log.bind fun _ => some (.done, ⟨holder.dir, none⟩)

-- There are offsets left, in the log, its segments and their files; no truncation goes below
-- the first offset; only a log that syncs is left without its destructors.
def permits (holder : Holder) : SequenceOp Bytes → Bool
  | .append record => holder.log.all fun log => log.fits record && log.roomFor (recoverableLimit cfg) &&
      (match log.nextOffset with
      | .ok off => decide (off < u64Max)
      | .error _ => false)
  | .truncate off => decide (cfg.initalOffset ≤ off)
  | .crash => cfg.syncWrites
  | _ => true

def object : Object Holder (SequenceOp Bytes) (SequenceReply Bytes) where
  start holder := holder = ⟨emptyDir, none⟩
  step holder op reply next := permits cfg holder op = true ∧ perform cfg holder op = some (reply, next)

end Perform

section Truncate

variable (cfg : Config) (terms : Terms) (dir : Dir) (log : Log)

theorem data_of_parts (kept : List (Extent × Segment)) (last : Extent × Segment) (removed : List (Extent × Segment)) :
    dataOf ((kept ++ last :: removed).map Prod.fst) = dataOf (extentsOf kept last) ++ dataOf (removed.map Prod.fst) := by
  rw [extentsOf, List.append_cons, List.map_append, dataOf, contents_append, List.map_append]
  rfl

-- The first segment is never removed, and a removed one starts behind the given offset.
theorem stands_truncate (whole : terms.whole = true) (off : Nat) (least : cfg.initalOffset ≤ off) (data : List Bytes)
    (stands : Stands cfg terms dir (some log) data) :
    ∃ kept, (data.length ≤ kept ∨ off < cfg.initalOffset + kept) ∧
      Stands cfg terms ((⟨dir, log⟩ : Site).truncate off).dir (some ((⟨dir, log⟩ : Site).truncate off).log) (data.take kept) := by
  cases stands with
  | up _ before active up =>
      have trimmed := truncate_trimmed cfg terms off whole before dir log active up
      have chained := up.extents.chained
      generalize (⟨dir, log⟩ : Site).truncate off = after at trimmed ⊢
      cases trimmed with
      | empties after above =>
          have some : before ++ [active] ≠ [] := by simp
          obtain ⟨first, rest, split⟩ := List.exists_cons_of_ne_nil some
          have listed : first ∈ before ++ [active] := split ▸ List.mem_cons_self
          rw [← List.map_singleton, ← List.map_append, split, List.map_cons, Chained] at chained
          have below := above first listed
          rw [(up.loaded first listed).base, chained.1] at below
          exact absurd least (Nat.not_le.mpr below)
      | lands kept last removed after split _ above opened same =>
          have parts : dataOf (extentsOf before active) = dataOf (extentsOf kept last) ++ dataOf (removed.map Prod.fst) := by
            rw [extentsOf, split, data_of_parts]
          refine ⟨(dataOf (extentsOf kept last)).length, ?_, ?_⟩
          · cases removed with
            | nil => exact .inl (by rw [parts]; simp [dataOf, contents])
            | cons gone others =>
                right
                have listed : gone ∈ before ++ [active] := by
                  rw [split]
                  exact List.mem_append_right _ (List.mem_cons_of_mem _ List.mem_cons_self)
                have behind := above gone List.mem_cons_self
                rw [← List.map_singleton, ← List.map_append, split, List.append_cons, List.map_append, chained_append,
                  List.map_cons, Chained] at chained
                rw [(up.loaded gone listed).base, chained.2.1] at behind
                rwa [dataOf, List.length_map]
          · rw [parts, List.take_left]
            exact .up after.log kept last opened

end Truncate

section Simulate

variable (cfg : Config)

-- Indexes stay small enough to be counted again.
def limits : Terms := ⟨recoverableLimit cfg, true⟩

theorem limits_narrow : recoverableLimit cfg < 2 ^ 32 := by
  unfold recoverableLimit
  split
  · decide
  · decide

def Related (holder : Holder) (data : List Bytes) : Prop := Stands cfg (limits cfg) holder.dir holder.log data

section Open

variable (dir : Dir) (log : Log) (data : List Bytes) (related : Related cfg ⟨dir, some log⟩ data)

include related

theorem append_simulated (record : Bytes) (permitted : permits cfg ⟨dir, some log⟩ (.append record) = true) :
    ∃ reply next after, perform cfg ⟨dir, some log⟩ (.append record) = some (reply, next) ∧
      SequenceStep cfg.initalOffset data (.append record) reply after ∧ Related cfg next after := by
  have offset := stands_next_offset cfg (limits cfg) dir log data related
  simp only [permits, Option.all_some, offset, Bool.and_eq_true, decide_eq_true_eq] at permitted
  obtain ⟨⟨fits, room⟩, offsets⟩ := permitted
  have alive := append_alive cfg (limits cfg) dir log data related record fits room offsets
  cases same : log.append cfg dir record with
  | mk next outcome =>
      have stands := stands_append cfg (limits cfg) dir log data related record fits room alive
      rw [same] at stands
      obtain ⟨writes, result⟩ := outcome
      rcases stands with ⟨accepted, stands⟩ | ⟨refused, stands⟩
      · dsimp only at accepted
        rw [accepted] at same
        exact ⟨_, ⟨dir.applyAll writes, some next⟩, _, by simp only [perform, Option.bind_some, same], .appended record, stands⟩
      · dsimp only at refused
        rw [refused] at same
        exact ⟨_, ⟨dir.applyAll writes, some next⟩, _, by simp only [perform, Option.bind_some, same], .refused record, stands⟩

theorem read_simulated (off : Nat) (buf : Bytes) :
    ∃ reply next, perform cfg ⟨dir, some log⟩ (.read off buf) = some (reply, next) ∧
      SequenceStep cfg.initalOffset data (.read off buf) reply data ∧ Related cfg next data := by
  have stands := stands_read cfg (limits cfg) dir log data related off buf
  by_cases inside : cfg.initalOffset ≤ off ∧ off < cfg.initalOffset + data.length
  · obtain ⟨number, rfl⟩ := Nat.exists_eq_add_of_le inside.1
    have found : data[number]? = some data[number] := List.getElem?_eq_getElem (by omega)
    have whole := stands_whole cfg (limits cfg) dir log data related rfl (limits_narrow cfg).le number _ buf found
    cases same : log.read dir (cfg.initalOffset + number) buf with
    | mk next outcome =>
        rw [same] at whole stands
        obtain ⟨writes, bytes, result⟩ := outcome
        cases whole
        exact ⟨_, ⟨dir.applyAll writes, some next⟩, by simp only [perform, Option.bind_some, same], .read number buf _ found, stands⟩
  · have outside : off < cfg.initalOffset ∨ cfg.initalOffset + data.length ≤ off := by omega
    have missing := stands_outside cfg (limits cfg) dir log data related off buf outside
    cases same : log.read dir off buf with
    | mk next outcome =>
        rw [same] at missing stands
        obtain ⟨writes, bytes, result⟩ := outcome
        cases missing
        exact ⟨_, ⟨dir.applyAll writes, some next⟩, by simp only [perform, Option.bind_some, same], .missing off buf outside, stands⟩

end Open

-- The operations of an open log, and of one that is not open.
def serves (holder : Holder) : SequenceOp Bytes → Bool
  | .start => holder.log.isNone
  | _ => holder.log.isSome

theorem perform_simulated (holder : Holder) (data : List Bytes) (related : Related cfg holder data) (op : SequenceOp Bytes)
    (permitted : permits cfg holder op = true) (ready : serves holder op = true) :
    ∃ reply next after, perform cfg holder op = some (reply, next) ∧ SequenceStep cfg.initalOffset data op reply after ∧
      Related cfg next after := by
  obtain ⟨dir, log⟩ := holder
  cases log with
  | none =>
      cases op with
      | start =>
          obtain ⟨log, opened⟩ := stands_opens cfg (limits cfg) dir data related le_rfl
          have stands := stands_start cfg (limits cfg) dir data related log opened
          cases same : Log.new cfg dir with
          | mk writes result =>
              rw [same] at opened stands
              cases opened
              exact ⟨_, ⟨dir.applyAll writes, some log⟩, _, by simp only [perform, same], .started, stands⟩
      | append | read | next | truncate | close | drop | crash => cases ready
  | some log =>
      cases op with
      | start => cases ready
      | append record => exact append_simulated cfg dir log data related record permitted
      | read off buf =>
          obtain ⟨reply, next, performed, answers, later⟩ := read_simulated cfg dir log data related off buf
          exact ⟨reply, next, data, performed, answers, later⟩
      | next =>
          have offset := stands_next_offset cfg (limits cfg) dir log data related
          exact ⟨_, ⟨dir, some log⟩, _, by simp only [perform, Option.bind_some, offset], .next, related⟩
      | truncate off =>
          obtain ⟨kept, stays, stands⟩ :=
            stands_truncate cfg (limits cfg) dir log rfl off (of_decide_eq_true permitted) data related
          exact ⟨_, _, _, rfl, .truncated off kept stays, stands⟩
      | close => exact ⟨_, _, _, rfl, .closed, stands_close cfg (limits cfg) dir log data related⟩
      | drop => exact ⟨_, _, _, rfl, .dropped, stands_drop cfg (limits cfg) dir log data related⟩
      | crash => exact ⟨_, _, _, rfl, .crashed, stands_crash cfg (limits cfg) dir log data related (.inl permitted)⟩

theorem perform_serves (holder next : Holder) (op : SequenceOp Bytes) (reply : SequenceReply Bytes)
    (moves : perform cfg holder op = some (reply, next)) : serves holder op = true := by
  obtain ⟨dir, log⟩ := holder
  cases log with
  | none =>
      cases op with
      | start => rfl
      | append | read | next | truncate | close | drop | crash => cases moves
  | some log =>
      cases op with
      | start => cases moves
      | append | read | next | truncate | close | drop | crash => rfl

theorem sequence_simulates : Simulates (object cfg) (sequence Bytes cfg.initalOffset) (Related cfg) where
  start := by
    rintro _ rfl
    exact ⟨[], rfl, empty_stands cfg _⟩
  step := by
    rintro holder data op reply next related ⟨permitted, moves⟩
    obtain ⟨_, _, after, again, answers, later⟩ :=
      perform_simulated cfg holder data related op permitted (perform_serves cfg holder next op reply moves)
    cases moves.symm.trans again
    exact ⟨after, answers, later⟩

-- To its callers the log is a numbered sequence of records, through rotations, truncations
-- and restarts, and it answers whatever it is asked.
theorem log_is_sequence (trace : List (SequenceOp Bytes × SequenceReply Bytes)) (holder : Holder)
    (run : Trace (object cfg) trace holder) :
    (∃ data, Trace (sequence Bytes cfg.initalOffset) trace data) ∧ ∀ op, permits cfg holder op = true →
      serves holder op = true → ∃ reply next, perform cfg holder op = some (reply, next) := by
  obtain ⟨data, model, related⟩ := trace_simulated _ _ _ (sequence_simulates cfg) trace holder run
  refine ⟨⟨data, model⟩, fun op permitted ready => ?_⟩
  obtain ⟨reply, next, _, performed, _⟩ := perform_simulated cfg holder data related op permitted ready
  exact ⟨reply, next, performed⟩

end Simulate

-- What a list of operations is answered, newest first.
def respond (cfg : Config) : List (SequenceOp Bytes) → List (SequenceOp Bytes × SequenceReply Bytes) → Holder →
    Option (List (SequenceOp Bytes × SequenceReply Bytes) × Holder)
  | [], trace, holder => some (trace, holder)
  | op :: rest, trace, holder =>
      if permits cfg holder op then
        (perform cfg holder op).bind fun (reply, next) => respond cfg rest ((op, reply) :: trace) next
      else none

theorem respond_trace (cfg : Config) (ops : List (SequenceOp Bytes)) (trace later : List (SequenceOp Bytes × SequenceReply Bytes))
    (holder last : Holder) (run : Trace (object cfg) trace holder) (responds : respond cfg ops trace holder = some (later, last)) :
    Trace (object cfg) later last := by
  induction ops generalizing trace holder with
  | nil =>
      cases responds
      exact run
  | cons op rest ih =>
      rw [respond] at responds
      split at responds
      case isFalse => cases responds
      rename_i permitted
      obtain ⟨⟨reply, next⟩, performed, more⟩ := Option.bind_eq_some_iff.mp responds
      exact ih _ next (.step trace holder next op reply run ⟨permitted, performed⟩) more

-- The third record is cut off, and its offset is handed out again.
def cutAndAppend : List (SequenceOp Bytes) :=
  [.start, .append [1], .append [2], .append [3], .read 2 [], .truncate 1, .read 2 [8], .append [4], .crash, .start, .read 2 [8],
    .next]

def cutAnswers : List (SequenceOp Bytes × SequenceReply Bytes) × Holder :=
  (respond ⟨0, true, 36, 18⟩ cutAndAppend [] ⟨emptyDir, none⟩).getD ([], ⟨emptyDir, none⟩)

theorem cut_sequence : cutAnswers.1.map Prod.snd =
      [.number 3, .value [4], .done, .done, .number 2, .missing, .done, .value [3], .number 2, .number 1, .number 0, .done] ∧
    ∃ data, Trace (sequence Bytes 0) cutAnswers.1 data := by
  have run : Trace (object ⟨0, true, 36, 18⟩) cutAnswers.1 cutAnswers.2 :=
    respond_trace ⟨0, true, 36, 18⟩ cutAndAppend [] cutAnswers.1 ⟨emptyDir, none⟩ cutAnswers.2 (.start _ rfl)
      (comes_to (respond ⟨0, true, 36, 18⟩ cutAndAppend [] ⟨emptyDir, none⟩) ([], ⟨emptyDir, none⟩) (by decide +kernel))
  exact ⟨by decide +kernel, (log_is_sequence ⟨0, true, 36, 18⟩ cutAnswers.1 cutAnswers.2 run).1⟩

end RaftLog.Sequence
