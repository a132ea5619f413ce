import RaftLog.SegmentLog.Segments

set_option autoImplicit false

namespace RaftLog.SegmentLog

open Lib

section Held

variable (cfg : Config) (terms : Terms) (dir : Dir) (buffer : Bytes) (extent : Extent) (held : Held cfg terms dir buffer extent)

include held

-- More bytes at the end of the stream.
theorem held_longer (whole : extent.lost = []) (after : Dir) (kept more : Bytes)
    (stream : after.store extent.base ++ kept = dir.store extent.base ++ buffer ++ more)
    (index : after.index extent.base = dir.index extent.base)
    (fits : (dir.store extent.base ++ buffer ++ more).length ≤ i64Max) : Held cfg terms after kept extent := by
  have before : extent.stream dir buffer = dir.store extent.base ++ buffer := by rw [Extent.stream, whole, List.append_nil]
  have grown : extent.stream after kept = extent.stream dir buffer ++ more := by
    rw [before, Extent.stream, whole, List.append_nil, stream]
  constructor
  case framed =>
    intro entry member
    rw [grown]
    exact framed_append lengthWidth _ more _ _ (held.framed entry member)
  case indexed => rw [index]; exact held.indexed
  case length => rw [index]; exact held.length
  case room => exact held.room
  case fits => rw [grown, before]; exact fits
  case few => exact held.few
  case offsets => exact held.offsets
  case kept => exact held.kept

-- One more record, once both copies are made.
theorem held_added (position : Nat) (record : Bytes) (framed : Framed lengthWidth (extent.stream dir buffer) position record)
    (mapped : (dir.index extent.base).length = cfg.maxSizeBytes)
    (room : entireWidth * extent.records.length + entireWidth ≤ cfg.maxSizeBytes) (few : extent.records.length < terms.limit)
    (offsets : extent.next < u64Max) :
    Held cfg terms (dir.applyAll (copies extent.base extent.records.length (entireWidth * extent.records.length) position))
        buffer (extent.add position record) ∧
      ((dir.applyAll (copies extent.base extent.records.length (entireWidth * extent.records.length) position)).index
        extent.base).length = cfg.maxSizeBytes := by
  have written := copies_index dir extent.base position extent.positions held.indexed
    (by rw [length_positions, mapped]; exact room)
  rw [length_positions] at written
  obtain ⟨indexed, length⟩ := written
  have added : (extent.add position record).positions = extent.positions ++ [position] := by simp [Extent.add, Extent.positions]
  have count : (extent.add position record).records.length = extent.records.length + 1 := by simp [Extent.add]
  refine ⟨?_, length.trans mapped⟩
  constructor
  case framed =>
    intro entry member
    rcases List.mem_append.mp member with old | new
    · exact held.framed entry old
    · rw [List.mem_singleton.mp new]
      exact framed
  case indexed => rw [added]; exact indexed
  case length => exact .inr (length.trans mapped)
  case room => rw [count, Nat.mul_succ]; exact room
  case fits => exact held.fits
  case few => rw [count]; exact few
  case offsets =>
    intro _
    rw [Extent.next, count]
    exact offsets
  case kept => exact held.kept

end Held

section Append

variable (cfg : Config) (terms : Terms) (dir : Dir) (extent : Extent) (segment : Segment) (record : Bytes)
  (loaded : Loaded cfg terms dir extent segment) (whole : extent.lost = [])
  (fits : segment.store.size + (frame lengthWidth record).length ≤ i64Max)

-- The chunks that Store::append hands to the file.
def Segment.chunks (cfg : Config) (segment : Segment) (record : Bytes) : List Bytes :=
  (segment.store.append cfg.syncWrites record).2

def Segment.stored (cfg : Config) (segment : Segment) (record : Bytes) : Segment :=
  { segment with store := (segment.store.append cfg.syncWrites record).1 }

def Segment.added (cfg : Config) (segment : Segment) (record : Bytes) : Segment :=
  { segment.stored cfg record with
    index := { segment.index with size := segment.index.size + entireWidth }, nextOffset := segment.nextOffset + 1 }

@[simp] theorem stored_base : (segment.stored cfg record).baseOffset = segment.baseOffset := by simp only [Segment.stored]

@[simp] theorem stored_next : (segment.stored cfg record).nextOffset = segment.nextOffset := by simp only [Segment.stored]

@[simp] theorem stored_index : (segment.stored cfg record).index = segment.index := by simp only [Segment.stored]

@[simp] theorem stored_store : (segment.stored cfg record).store = (segment.store.append cfg.syncWrites record).1 := by
  simp only [Segment.stored]

@[simp] theorem added_base : (segment.added cfg record).baseOffset = segment.baseOffset := by
  simp only [Segment.added, stored_base]

@[simp] theorem added_next : (segment.added cfg record).nextOffset = segment.nextOffset + 1 := by simp only [Segment.added]

@[simp] theorem added_store : (segment.added cfg record).store = (segment.stored cfg record).store := by
  simp only [Segment.added]

@[simp] theorem added_index :
    (segment.added cfg record).index = { segment.index with size := segment.index.size + entireWidth } := by
  simp only [Segment.added]

-- The bytes are in the file, or still in the writer.
theorem chunks_stream : (segment.chunks cfg record).flatten ++ (segment.stored cfg record).store.buffer =
    segment.store.buffer ++ frame lengthWidth record :=
  append_stream segment.store cfg.syncWrites record

include loaded

theorem segment_append_full (full : cfg.maxSizeBytes < entireWidth * extent.records.length + entireWidth) :
    segment.append cfg record = (segment.stored cfg record, storeWrites segment.baseOffset (segment.chunks cfg record),
      .error (.io .unexpectedEof "index is full")) := by
  rw [Segment.append, index_full _ _ _ _ (by rw [loaded.index]; exact full)]
  rfl

-- `as u32` cuts off what the four bytes of the slot have no room for.
theorem segment_append_room (room : entireWidth * extent.records.length + entireWidth ≤ cfg.maxSizeBytes)
    (offsets : extent.next < u64Max) :
    segment.append cfg record = (segment.added cfg record,
      storeWrites segment.baseOffset (segment.chunks cfg record) ++
        copies segment.baseOffset extent.records.length (entireWidth * extent.records.length) segment.store.size,
      .ok segment.nextOffset) := by
  have relative : segment.relative segment.nextOffset = extent.records.length % 2 ^ 32 := by
    rw [Segment.relative, loaded.next, loaded.base, Extent.next, Nat.add_sub_cancel_left]
  have written : toBytes offWidth (extent.records.length % 2 ^ 32) = toBytes offWidth extent.records.length :=
    to_bytes_mod offWidth extent.records.length
  have sum : checkedAdd u64Max segment.nextOffset 1 = .ok (segment.nextOffset + 1) := if_pos (loaded.next ▸ offsets)
  have start : segment.index.size = entireWidth * extent.records.length := by rw [loaded.index]
  rw [Segment.append, index_room _ _ _ _ (by rw [loaded.index]; exact room), relative]
  simp only [sum, copies, written]
  conv_rhs => rw [← start]
  rfl

theorem segment_append_overflow (most : ¬ extent.next < u64Max) (room : entireWidth * extent.records.length + entireWidth ≤ cfg.maxSizeBytes) :
    (segment.append cfg record).2.2 = .error (.panic "attempt to add with overflow") := by
  have sum : checkedAdd u64Max segment.nextOffset 1 = .error (.panic "attempt to add with overflow") := by
    apply if_neg
    rw [loaded.next]
    exact most
  rw [Segment.append, index_room _ _ _ _ (by rw [loaded.index]; exact room)]
  simp only [sum]

include whole fits

-- The state of the files when the store has written, wholly or in part, and the index
-- has not.
theorem stored_held (chunks : List Bytes) (kept : Bytes)
    (stream : chunks.flatten ++ kept <+: segment.store.buffer ++ frame lengthWidth record)
    (covers : segment.store.buffer <+: chunks.flatten ++ kept) :
    Held cfg terms (dir.applyAll (storeWrites extent.base chunks)) kept extent := by
  obtain ⟨more, covers⟩ := covers
  apply held_longer cfg terms dir segment.store.buffer extent loaded.held whole _ kept more
  · rw [store_writes_store, List.append_assoc, ← covers, List.append_assoc]
  · exact store_writes_index dir extent.base extent.base chunks
  · have bound := stream.length_le
    rw [← covers, List.length_append, List.length_append] at bound
    rw [loaded.size, List.length_append] at fits
    rw [List.length_append, List.length_append]
    omega

theorem store_writes_within (count : Nat) (synced : cfg.syncWrites = true) (empty : segment.store.buffer = []) :
    Held cfg terms (dir.applyAll (storeWrites extent.base ((segment.chunks cfg record).take count))) [] extent := by
  have stream := append_stream segment.store cfg.syncWrites record
  rw [append_synced _ _ _ synced, List.append_nil, empty, List.nil_append] at stream
  apply stored_held cfg terms dir extent segment record loaded whole fits
  · rw [empty, List.nil_append, ← stream, List.append_nil]
    exact List.IsPrefix.flatten (List.take_prefix count _)
  · rw [empty]
    exact List.nil_prefix

theorem stored_loaded :
    Loaded cfg terms (dir.applyAll (storeWrites extent.base (segment.chunks cfg record))) extent (segment.stored cfg record) := by
  have stream := chunks_stream cfg segment record
  have index := store_writes_index dir extent.base extent.base (segment.chunks cfg record)
  constructor
  case held =>
    apply stored_held cfg terms dir extent segment record loaded whole fits (segment.chunks cfg record)
    · rw [stream]
    · rw [stream]
      exact List.prefix_append _ _
  case base => rw [stored_base]; exact loaded.base
  case next => rw [stored_next]; exact loaded.next
  case size =>
    have size := append_size segment.store cfg.syncWrites record
    rw [loaded.size] at size
    have length := congrArg List.length stream
    simp only [store_writes_store, Segment.chunks, Segment.stored, List.length_append] at size length ⊢
    omega
  case index => rw [stored_index]; exact loaded.index
  case mapped => rw [index]; exact loaded.mapped
  case synced => rw [stored_store]; exact append_synced segment.store cfg.syncWrites record

theorem added_loaded (room : entireWidth * extent.records.length + entireWidth ≤ cfg.maxSizeBytes)
    (few : extent.records.length < terms.limit) (offsets : extent.next < u64Max) :
    Loaded cfg terms
      (dir.applyAll (storeWrites extent.base (segment.chunks cfg record) ++
        copies extent.base extent.records.length (entireWidth * extent.records.length) segment.store.size))
      (extent.add segment.store.size record) (segment.added cfg record) := by
  have stored := stored_loaded cfg terms dir extent segment record loaded whole fits
  have stream : extent.stream (dir.applyAll (storeWrites extent.base (segment.chunks cfg record)))
      (segment.stored cfg record).store.buffer =
      dir.store extent.base ++ segment.store.buffer ++ frame lengthWidth record := by
    rw [Extent.stream, whole, List.append_nil, store_writes_store, List.append_assoc, List.append_assoc,
      chunks_stream cfg segment record]
  have framed := framed_end lengthWidth (dir.store extent.base ++ segment.store.buffer) record
  rw [← stream, ← loaded.size] at framed
  have added := held_added cfg terms _ _ extent stored.held segment.store.size record framed stored.mapped room few offsets
  have store : (dir.applyAll (storeWrites extent.base (segment.chunks cfg record) ++
      copies extent.base extent.records.length (entireWidth * extent.records.length) segment.store.size)).store extent.base =
      (dir.applyAll (storeWrites extent.base (segment.chunks cfg record))).store extent.base := by
    rw [apply_all_append]
    apply index_writes_store
    intro write member
    rcases List.mem_pair.mp member with rfl | rfl
    · rfl
    · rfl
  have count : (extent.add segment.store.size record).records.length = extent.records.length + 1 := by simp [Extent.add]
  constructor
  case held => rw [apply_all_append, added_store]; exact added.1
  case base => rw [added_base]; exact loaded.base
  case next =>
    rw [added_next, Extent.next, count, ← Nat.add_assoc, loaded.next]
    rfl
  case size =>
    rw [added_store, stored.size, ← store]
    rfl
  case index =>
    rw [added_index, loaded.index, count, Nat.mul_succ]
  case mapped => rw [apply_all_append]; exact added.2
  case synced => rw [added_store]; exact stored.synced

end Append

end RaftLog.SegmentLog
