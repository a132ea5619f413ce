import RaftLog.Lib.Machine
import RaftLog.SegmentLog.Index

set_option autoImplicit false

namespace RaftLog.IndexFile

open Lib SegmentLog

-- One index file, the session that has it open, and the positions of all entries written to it.
structure File where
  dir : Dir
  index : Option Index
  written : List Nat

inductive Action where
  | new
  | write (position : Nat)
  | close
  | drop
deriving DecidableEq, Repr

-- Every session has the same limit; an entry's offset is the count of those before it.
def step (limit base : Nat) (file : File) : Action → Option File
  | .new =>
      match file.index with
      | some _ => none
      | none =>
          match Index.new limit base (file.dir.index base) with
          | (writes, .ok index) => some { file with dir := file.dir.applyAll writes, index := some index }
          | (_, .error _) => none
  | .write position => file.index.bind fun index =>
      if index.currentOffset ≤ u32Max ∧ position ≤ u64Max then
        match index.write base index.currentOffset position with
        | .ok (index, writes) => some ⟨file.dir.applyAll writes, some index, file.written ++ [position]⟩
        | .error _ => some file
      else none
  | .close => file.index.map fun index => { file with dir := file.dir.apply (.setIndexLen base index.size), index := none }
  | .drop => file.index.map fun _ => { file with index := none }

def machine (limit base : Nat) : Machine File Action := ⟨fun file => file = ⟨emptyDir, none, []⟩, step limit base⟩

-- What the next Index::new makes of the file.
structure Recovered (limit base : Nat) (file : File) (index : Index) (content : Bytes) : Prop where
  opened : (Index.new limit base (file.dir.index base)).2 = .ok index
  mapped : content = (file.dir.applyAll (Index.new limit base (file.dir.index base)).1).index base
  size : index.size = entireWidth * file.written.length
  reads : ∀ number position, file.written[number]? = some position → index.read content number = .ok (number, position)
  beyond : ∀ number, file.written.length ≤ number → ∃ kind message, index.read content number = .error (.io kind message)

-- The entries stand in front, and an open session knows how many they are.
structure Kept (limit base : Nat) (file : File) : Prop where
  indexed : Indexed (file.dir.index base) file.written
  length : (file.dir.index base).length = entireWidth * file.written.length ∨ (file.dir.index base).length = limit
  room : entireWidth * file.written.length ≤ limit
  small : ∀ position ∈ file.written, position ≤ u64Max
  opened : ∀ index, file.index = some index →
    index = ⟨entireWidth * file.written.length, limit⟩ ∧ (file.dir.index base).length = limit

section Steps

variable (limit base : Nat) (file : File) (kept : Kept limit base file)

include kept

theorem new_kept (index : Index) (opened : (Index.new limit base (file.dir.index base)).2 = .ok index) :
    Kept limit base
      { file with dir := file.dir.applyAll (Index.new limit base (file.dir.index base)).1, index := some index } := by
  have content := opened_index_content limit base file.dir
  have length := length_opened_index limit (file.dir.index base)
  constructor
  case indexed =>
    rw [content]
    exact opened_index_indexed limit base file.dir file.written kept.indexed kept.room kept.length
  case length => exact .inr (content ▸ length)
  case room => exact kept.room
  case small => exact kept.small
  case opened =>
    intro other same
    cases same
    exact ⟨index_opened limit base file.dir file.written index kept.indexed kept.length opened, content ▸ length⟩

theorem write_kept (index after : Index) (position : Nat) (writes : List Write) (open_ : file.index = some index)
    (small : position ≤ u64Max) (written : index.write base index.currentOffset position = .ok (after, writes)) :
    Kept limit base ⟨file.dir.applyAll writes, some after, file.written ++ [position]⟩ := by
  obtain ⟨rfl, length⟩ := kept.opened index open_
  have count : (⟨entireWidth * file.written.length, limit⟩ : Index).currentOffset = file.written.length :=
    Nat.mul_div_cancel_left _ (by decide)
  by_cases full : limit < entireWidth * file.written.length + entireWidth
  · rw [index_full _ _ _ _ full] at written
    cases written
  have room := Nat.le_of_not_lt full
  rw [index_room _ _ _ _ room, count] at written
  cases written
  obtain ⟨indexed, same⟩ := copies_index file.dir base position file.written kept.indexed (by rw [length]; exact room)
  have grown : (file.written ++ [position]).length = file.written.length + 1 := by simp
  constructor
  case indexed => exact indexed
  case length => exact .inr (same.trans length)
  case room => rw [grown, Nat.mul_succ]; exact room
  case small =>
    intro other member
    rcases List.mem_append.mp member with old | new
    · exact kept.small other old
    · rw [List.mem_singleton.mp new]
      exact small
  case opened =>
    intro other here
    cases here
    rw [grown, Nat.mul_succ]
    exact ⟨rfl, same.trans length⟩

theorem close_kept (index : Index) (open_ : file.index = some index) :
    Kept limit base { file with dir := file.dir.apply (.setIndexLen base index.size), index := none } := by
  obtain ⟨rfl, _⟩ := kept.opened index open_
  obtain ⟨padding, content, _⟩ := kept.indexed
  have slotsLength := length_slots slotBytes entireWidth length_slot_bytes 0 file.written
  have cut : (file.dir.apply (.setIndexLen base (entireWidth * file.written.length))).index base = slots slotBytes 0 file.written := by
    simp only [Dir.apply, put_index_index]
    rw [content]
    exact resize_prefix _ padding _ slotsLength.symm
  constructor
  case indexed => exact ⟨[], by rw [cut, List.append_nil], .inl rfl⟩
  case length => exact .inl (cut ▸ slotsLength)
  case room => exact kept.room
  case small => exact kept.small
  case opened =>
    intro other here
    cases here

theorem drop_kept : Kept limit base { file with index := none } := by
  refine ⟨kept.indexed, kept.length, kept.room, kept.small, fun index here => ?_⟩
  cases here

end Steps

theorem kept_step (limit base : Nat) (file next : File) (action : Action) (kept : Kept limit base file)
    (moves : step limit base file action = some next) : Kept limit base next := by
  cases action with
  | new =>
      simp only [step] at moves
      split at moves
      · cases moves
      split at moves
      · rename_i writes index same
        cases moves
        have opened := new_kept limit base file kept index (by rw [same])
        rwa [same] at opened
      · cases moves
  | write position =>
      simp only [step, Option.bind_eq_some_iff] at moves
      obtain ⟨index, open_, moves⟩ := moves
      split at moves
      case isFalse => cases moves
      rename_i typed
      split at moves
      · rename_i after writes written
        cases moves
        exact write_kept limit base file kept index after position writes open_ typed.2 written
      · cases moves
        exact kept
  | close =>
      simp only [step, Option.map_eq_some_iff] at moves
      obtain ⟨index, open_, rfl⟩ := moves
      exact close_kept limit base file kept index open_
  | drop =>
      simp only [step, Option.map_eq_some_iff] at moves
      obtain ⟨_, _, rfl⟩ := moves
      exact drop_kept limit base file kept

theorem kept_run (limit base : Nat) (file : File) (run : Reachable (machine limit base) file) : Kept limit base file := by
  refine run_invariant (machine limit base) _ (Kept limit base) ?_ ?_ file run
  · rintro _ rfl
    exact ⟨indexed_nil, .inl rfl, Nat.zero_le _, by simp, by simp⟩
  · intro file action next _ kept _ moves
    exact kept_step limit base file next action kept moves

-- Each slot has its own number in front of the position.
theorem read_entry (content : Bytes) (written : List Nat) (indexed : Indexed content written) (limit number position : Nat)
    (mapped : content.length = limit) (found : written[number]? = some position) (few : written.length ≤ 2 ^ 32)
    (small : position ≤ u64Max) :
    (⟨entireWidth * written.length, limit⟩ : Index).read content number = .ok (number, position) := by
  have bound := (List.getElem?_eq_some_iff.mp found).1
  have within := slot_within content written indexed number position found
  have below : entireWidth * number + entireWidth ≤ entireWidth * written.length := Nat.mul_le_mul_left entireWidth bound
  rw [Index.read, Nat.mul_comm number, if_neg (Nat.not_lt.mpr below), if_neg (Nat.not_lt.mpr (mapped ▸ within)),
    slot_number content written indexed number position found, slot_position content written indexed number position found,
    of_to_bytes offWidth number (bound.trans_le few), of_to_bytes positionWidth position (Nat.lt_succ_of_le small)]

theorem read_beyond (limit count number : Nat) (content : Bytes) (beyond : count ≤ number) :
    (⟨entireWidth * count, limit⟩ : Index).read content number =
      .error (.io .unexpectedEof "offset bigger than index size") := by
  apply if_pos
  have most : entireWidth * count ≤ number * entireWidth := by
    rw [Nat.mul_comm number]
    exact Nat.mul_le_mul_left entireWidth beyond
  exact most.trans_lt (Nat.lt_add_of_pos_right (by decide))

theorem recovery_exact (limit base : Nat) (file : File) (run : Reachable (machine limit base) file)
    (few : file.written.length < 2 ^ 32 - 1) : ∃ index content, Recovered limit base file index content := by
  have kept := kept_run limit base file run
  have recoverable : Recoverable file.written.length limit := by
    unfold Recoverable
    omega
  have opened := index_opens limit base file.dir file.written kept.indexed kept.length (.inl recoverable)
  have content := opened_index_content limit base file.dir
  have indexed := opened_index_indexed limit base file.dir file.written kept.indexed kept.room kept.length
  refine ⟨_, _, opened, content.symm, rfl, fun number position found => ?_, fun number beyond => ?_⟩
  · exact read_entry _ file.written indexed limit number position (length_opened_index limit _) found (by omega)
      (kept.small position (List.mem_of_getElem? found))
  · exact ⟨_, _, read_beyond limit file.written.length number _ beyond⟩

-- A session that is closed behind two entries, and one that is dropped behind a third.
def twoSessions : List Action := [.new, .write 7, .write 0, .close, .new, .write 300, .drop]

def fileAfter (limit base : Nat) (actions : List Action) : File :=
  (exec (machine limit base) ⟨emptyDir, none, []⟩ actions).getD ⟨emptyDir, none, []⟩

theorem three_entries_recovered :
    (fileAfter 100 0 twoSessions).written = [7, 0, 300] ∧
      ∃ index content, Recovered 100 0 (fileAfter 100 0 twoSessions) index content :=
  ⟨by decide +kernel, recovery_exact 100 0 (fileAfter 100 0 twoSessions)
    (exec_reaches (machine 100 0) twoSessions _ _ (.start _ rfl) (by decide +kernel)) (by decide +kernel)⟩

end RaftLog.IndexFile
