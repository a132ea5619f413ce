import RaftLog.SegmentLog.Segments

set_option autoImplicit false

namespace RaftLog.SegmentLog

open Lib

variable (cfg : Config) (terms : Terms) (dir : Dir) (extent : Extent) (segment : Segment)
  (loaded : Loaded cfg terms dir extent segment)

def Segment.flush (segment : Segment) : Segment := { segment with store := segment.store.flush.1 }

def Segment.flushWrites (segment : Segment) : List Write := storeWrites segment.baseOffset segment.store.flush.2

theorem flush_writes_base : ∀ write ∈ segment.flushWrites, write.base = segment.baseOffset := store_writes_base _ _

include loaded

theorem flush_store : (dir.applyAll segment.flushWrites).store extent.base = dir.store extent.base ++ segment.store.buffer := by
  rw [Segment.flushWrites, loaded.base, store_writes_store]
  exact congrArg _ (flushed_flatten segment.store.buffer)

theorem flush_loaded : Loaded cfg terms (dir.applyAll segment.flushWrites) extent segment.flush := by
  have store := flush_store cfg terms dir extent segment loaded
  have index : (dir.applyAll segment.flushWrites).index extent.base = dir.index extent.base :=
    store_writes_index dir _ extent.base _
  have stream : extent.stream (dir.applyAll segment.flushWrites) [] = extent.stream dir segment.store.buffer := by
    rw [Extent.stream, store, List.append_nil, Extent.stream]
  constructor
  case held =>
    constructor
    case framed => exact fun entry member => stream.symm ▸ loaded.held.framed entry member
    case indexed => rw [index]; exact loaded.held.indexed
    case length => rw [index]; exact loaded.held.length
    case room => exact loaded.held.room
    case fits => exact stream.symm ▸ loaded.held.fits
    case few => exact loaded.held.few
    case offsets => exact loaded.held.offsets
    case kept => exact loaded.held.kept
  case base => exact loaded.base
  case next => exact loaded.next
  case size =>
    rw [store]
    exact loaded.size.trans (by simp [Segment.flush, Store.flush])
  case index => exact loaded.index
  case mapped => rw [index]; exact loaded.mapped
  case synced => exact fun _ => rfl

-- A closed segment: everything is in its files and the index is cut to its entries.
theorem close_held : Held cfg terms (dir.applyAll segment.close.2) [] extent ∧
    ((dir.applyAll segment.close.2).index extent.base).length = entireWidth * extent.records.length := by
  have flushed := flush_loaded cfg terms dir extent segment loaded
  have size : segment.index.size = entireWidth * extent.records.length := by rw [loaded.index]
  have after : dir.applyAll segment.close.2 =
      (dir.applyAll segment.flushWrites).apply (.setIndexLen extent.base (entireWidth * extent.records.length)) := by
    rw [← size, ← loaded.base]
    exact apply_all_append dir segment.flushWrites _
  obtain ⟨padding, content, filled⟩ := flushed.held.indexed
  have slotsLength := length_slots slotBytes entireWidth length_slot_bytes 0 extent.positions
  rw [length_positions] at slotsLength
  have index : (dir.applyAll segment.close.2).index extent.base = slots slotBytes 0 extent.positions := by
    rw [after]
    simp only [Dir.apply, put_index_index]
    rw [content]
    exact resize_prefix _ padding _ slotsLength.symm
  have store : (dir.applyAll segment.close.2).store extent.base = (dir.applyAll segment.flushWrites).store extent.base := by
    rw [after]
    rfl
  have stream : extent.stream (dir.applyAll segment.close.2) [] = extent.stream (dir.applyAll segment.flushWrites) [] := by
    rw [Extent.stream, store, Extent.stream]
  refine ⟨?_, by rw [index, slotsLength]⟩
  constructor
  case framed => exact fun entry member => stream.symm ▸ flushed.held.framed entry member
  case indexed => exact ⟨[], by rw [index, List.append_nil], .inl rfl⟩
  case length => exact .inl (by rw [index, slotsLength])
  case room => exact loaded.held.room
  case fits => exact stream.symm ▸ flushed.held.fits
  case few => exact loaded.held.few
  case offsets => exact loaded.held.offsets
  case kept => exact loaded.held.kept

-- What a crash leaves of the segment.
def Extent.crashed (extent : Extent) (buffer : Bytes) : Extent := { extent with lost := buffer ++ extent.lost }

theorem crashed_held (safe : terms.whole = true → segment.store.buffer = []) :
    Held cfg terms dir [] (extent.crashed segment.store.buffer) := by
  have stream : (extent.crashed segment.store.buffer).stream dir [] = extent.stream dir segment.store.buffer := by
    simp [Extent.stream, Extent.crashed]
  constructor
  case framed => exact fun entry member => stream.symm ▸ loaded.held.framed entry member
  case indexed => exact loaded.held.indexed
  case length => exact loaded.held.length
  case room => exact loaded.held.room
  case fits => exact stream.symm ▸ loaded.held.fits
  case few => exact loaded.held.few
  case offsets => exact loaded.held.offsets
  case kept =>
    intro whole
    rw [Extent.crashed, safe whole, loaded.held.kept whole]
    rfl

section Read

variable (number : Nat) (bound : number < extent.records.length)

include bound

theorem slot_of_few (narrow : terms.limit ≤ 2 ^ 32) : number % 2 ^ 32 = number :=
  Nat.mod_eq_of_lt (bound.trans_le (loaded.held.few.trans narrow))

variable (position : Nat) (record buf : Bytes) (found : extent.records[number % 2 ^ 32]? = some (position, record))

include found

-- `as u32` takes the slots round again.
theorem segment_read_in_range : segment.read dir (extent.base + number) buf =
    (segment.flush, segment.flushWrites, fetch (dir.store extent.base ++ segment.store.buffer) position buf) := by
  have inside : ¬ (extent.base + number < segment.baseOffset ∨ extent.base + number ≥ segment.nextOffset) := by
    rw [loaded.base, loaded.next, Extent.next]
    omega
  have relative : segment.relative (extent.base + number) = number % 2 ^ 32 := by
    rw [Segment.relative, loaded.base, Nat.add_sub_cancel_left]
  have framed := framed_within lengthWidth _ _ _ (loaded.held.framed _ (List.mem_of_getElem? found))
  have small : position < 2 ^ 64 := by
    have fits := loaded.held.fits
    unfold i64Max at fits
    dsimp only at framed
    omega
  obtain ⟨off, slot⟩ := index_read segment.index (dir.index extent.base) extent.positions loaded.held.indexed
    (by rw [loaded.index, length_positions]) (by rw [loaded.index, loaded.mapped]) (number % 2 ^ 32) position
    (by rw [Extent.positions, List.getElem?_map, found]; rfl) small
  have flushed := flush_store cfg terms dir extent segment loaded
  rw [← loaded.base] at slot
  rw [Segment.read, if_neg inside, relative, slot, ← flushed, ← loaded.base]
  rfl

-- A record is read whole, or the crash has taken its end.
theorem segment_reads :
    (segment.read dir (extent.base + number) buf).2.2 = (record, .ok ()) ∨
      (∃ kind message, (segment.read dir (extent.base + number) buf).2.2.2 = .error (.io kind message)) ∧ extent.lost ≠ [] := by
  have framed := loaded.held.framed _ (List.mem_of_getElem? found)
  rw [segment_read_in_range cfg terms dir extent segment loaded number bound position record buf found]
  rcases fetch_framed (dir.store extent.base ++ segment.store.buffer) extent.lost position record buf framed
    loaded.held.fits with whole | ⟨failed, lost⟩
  · exact .inl whole
  · exact .inr ⟨⟨_, _, failed⟩, lost⟩

end Read

end RaftLog.SegmentLog
