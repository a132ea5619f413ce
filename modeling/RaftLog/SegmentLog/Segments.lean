import RaftLog.SegmentLog.Index
import RaftLog.SegmentLog.Store

set_option autoImplicit false

namespace RaftLog.SegmentLog

open Lib

-- What one segment stands for: its records, each with its position in the store, and
-- the end of the store that a crash has taken with the buffer.
structure Extent where
  base : Nat
  records : List (Nat × Bytes)
  lost : Bytes

def Extent.positions (extent : Extent) : List Nat := extent.records.map Prod.fst

@[simp] theorem length_positions (extent : Extent) : extent.positions.length = extent.records.length := List.length_map _

def Extent.next (extent : Extent) : Nat := extent.base + extent.records.length

def Extent.add (extent : Extent) (position : Nat) (record : Bytes) : Extent :=
  { extent with records := extent.records ++ [(position, record)] }

-- The bytes of the segment's store, wherever they are.
def Extent.stream (extent : Extent) (dir : Dir) (buffer : Bytes) : Bytes :=
  dir.store extent.base ++ buffer ++ extent.lost

-- What is asked of every segment: how many records it may have, and whether none of
-- them may lose its bytes to a crash.
structure Terms where
  limit : Nat
  whole : Bool

-- The segment's two files and the buffer of its writer hold the extent.
structure Held (cfg : Config) (terms : Terms) (dir : Dir) (buffer : Bytes) (extent : Extent) : Prop where
  framed : ∀ entry ∈ extent.records, Framed lengthWidth (extent.stream dir buffer) entry.1 entry.2
  indexed : Indexed (dir.index extent.base) extent.positions
  length : (dir.index extent.base).length = entireWidth * extent.records.length ∨
    (dir.index extent.base).length = cfg.maxSizeBytes
  room : entireWidth * extent.records.length ≤ cfg.maxSizeBytes
  fits : (extent.stream dir buffer).length ≤ i64Max
  few : extent.records.length ≤ terms.limit
  offsets : extent.records ≠ [] → extent.next ≤ u64Max
  kept : terms.whole = true → extent.lost = []

-- A process has opened the segment.
structure Loaded (cfg : Config) (terms : Terms) (dir : Dir) (extent : Extent) (segment : Segment) : Prop where
  held : Held cfg terms dir segment.store.buffer extent
  base : segment.baseOffset = extent.base
  next : segment.nextOffset = extent.next
  size : segment.store.size = (dir.store extent.base ++ segment.store.buffer).length
  index : segment.index = ⟨entireWidth * extent.records.length, cfg.maxSizeBytes⟩
  mapped : (dir.index extent.base).length = cfg.maxSizeBytes
  synced : cfg.syncWrites = true → segment.store.buffer = []

section Frame

variable (cfg : Config) (terms : Terms) (dir after : Dir) (extent : Extent)
  (sameStore : after.store extent.base = dir.store extent.base)
  (sameIndex : after.index extent.base = dir.index extent.base)

include sameStore sameIndex

theorem held_same (buffer : Bytes) (held : Held cfg terms dir buffer extent) : Held cfg terms after buffer extent := by
  have stream : extent.stream after buffer = extent.stream dir buffer := by rw [Extent.stream, sameStore, Extent.stream]
  constructor
  case framed => rw [stream]; exact held.framed
  case indexed => rw [sameIndex]; exact held.indexed
  case length => rw [sameIndex]; exact held.length
  case room => exact held.room
  case fits => rw [stream]; exact held.fits
  case few => exact held.few
  case offsets => exact held.offsets
  case kept => exact held.kept

theorem loaded_same (segment : Segment) (loaded : Loaded cfg terms dir extent segment) :
    Loaded cfg terms after extent segment := by
  refine ⟨held_same cfg terms dir after extent sameStore sameIndex _ loaded.held, loaded.base, loaded.next, ?_, loaded.index, ?_,
    loaded.synced⟩
  · rw [sameStore]
    exact loaded.size
  · rw [sameIndex]
    exact loaded.mapped

end Frame

section New

variable (cfg : Config) (dir : Dir) (base : Nat)

theorem index_new_writes : ∀ write ∈ (Index.new cfg.maxSizeBytes base (dir.index base)).1,
    write.base = base ∧ write.onIndex = true := by
  unfold Index.new
  intro write member
  split at member
  · rcases List.mem_pair.mp member with rfl | rfl
    · exact ⟨rfl, rfl⟩
    · exact ⟨rfl, rfl⟩
  split at member
  · rw [List.mem_singleton.mp member]
    exact ⟨rfl, rfl⟩
  · rw [List.mem_singleton.mp member]
    exact ⟨rfl, rfl⟩

theorem segment_new_base : ∀ write ∈ (Segment.new cfg dir base).1, write.base = base := by
  intro write member
  rcases List.mem_cons.mp member with rfl | later
  · rfl
  rcases List.mem_cons.mp later with rfl | rest
  · rfl
  · exact (index_new_writes cfg dir base write rest).1

theorem segment_new_index :
    (dir.applyAll (Segment.new cfg dir base).1).index base = openedIndex cfg.maxSizeBytes (dir.index base) := by
  have created : ((dir.apply (.createStore base)).apply (.createIndex base)).index base = dir.index base := by
    simp [Dir.apply]
  rw [← created, ← opened_index_content, created]
  rfl

theorem segment_new_store : (dir.applyAll (Segment.new cfg dir base).1).store base = dir.store base := by
  refine (index_writes_store _ base _ fun write member => (index_new_writes cfg dir base write member).2).trans ?_
  simp [Dir.apply]

theorem segment_new_has (other : Nat) :
    (dir.applyAll (Segment.new cfg dir base).1).has other ↔ dir.has other ∨ other = base := by
  rw [apply_all_has]
  apply or_congr_right
  constructor
  · rintro ⟨write, member, same⟩
    exact same.trans (segment_new_base cfg dir base write member)
  · intro same
    exact ⟨.createStore base, List.mem_cons_self, same⟩

-- Opening takes the number of records from the index.
theorem segment_new_inv (segment : Segment) (opened : (Segment.new cfg dir base).2 = .ok segment) :
    ∃ index, (Index.new cfg.maxSizeBytes base (dir.index base)).2 = .ok index ∧
      segment = ⟨base, base + index.currentOffset, Store.new (dir.store base), index⟩ := by
  cases found : (Index.new cfg.maxSizeBytes base (dir.index base)).2 with
  | error failure =>
      simp only [Segment.new, found, bind, Except.bind] at opened
      cases opened
  | ok index =>
      refine ⟨index, rfl, ?_⟩
      simp only [Segment.new, found, bind, Except.bind, pure, Except.pure] at opened
      by_cases some : index.size > 0
      · rw [if_pos some, checkedAdd] at opened
        by_cases fits : base + index.currentOffset ≤ u64Max
        · rw [if_pos fits] at opened
          exact (Except.ok.inj opened).symm
        · rw [if_neg fits] at opened
          cases opened
      · rw [if_neg some] at opened
        have none : index.currentOffset = 0 := by rw [Index.currentOffset, Nat.eq_zero_of_not_pos some, Nat.zero_div]
        rw [none]
        exact (Except.ok.inj opened).symm

variable (terms : Terms) (extent : Extent) (held : Held cfg terms dir [] extent)

include held

theorem segment_new_held : Held cfg terms (dir.applyAll (Segment.new cfg dir extent.base).1) [] extent := by
  have store := segment_new_store cfg dir extent.base
  have index := segment_new_index cfg dir extent.base
  have stream : extent.stream (dir.applyAll (Segment.new cfg dir extent.base).1) [] = extent.stream dir [] := by
    rw [Extent.stream, store, Extent.stream]
  constructor
  case framed => rw [stream]; exact held.framed
  case indexed =>
    rw [index]
    refine opened_index_indexed _ _ _ _ held.indexed ?_ ?_
    · rw [length_positions]; exact held.room
    · rw [length_positions]; exact held.length
  case length => exact .inr (index ▸ length_opened_index _ _)
  case room => exact held.room
  case fits => rw [stream]; exact held.fits
  case few => exact held.few
  case offsets => exact held.offsets
  case kept => exact held.kept

-- A segment that opens is the one that was there.
theorem segment_new_loaded (index : Index)
    (opened : (Index.new cfg.maxSizeBytes extent.base (dir.index extent.base)).2 = .ok index) :
    (Segment.new cfg dir extent.base).2 = .ok ⟨extent.base, extent.next, Store.new (dir.store extent.base), index⟩ ∧
      Loaded cfg terms (dir.applyAll (Segment.new cfg dir extent.base).1) extent
        ⟨extent.base, extent.next, Store.new (dir.store extent.base), index⟩ := by
  have same := index_opened _ _ _ extent.positions index held.indexed (by rw [length_positions]; exact held.length) opened
  rw [length_positions] at same
  constructor
  · simp only [Segment.new, opened, bind, Except.bind]
    by_cases empty : extent.records = []
    · have zero : ¬ index.size > 0 := by simp [same, empty]
      rw [if_neg zero, Extent.next, empty]
      rfl
    · have some := List.length_pos_iff.mpr empty
      have positive : index.size > 0 := by
        rw [same]
        exact Nat.mul_pos (by decide) some
      have count : index.currentOffset = extent.records.length := by
        rw [same]
        exact Nat.mul_div_cancel_left _ (by decide)
      have sum : checkedAdd u64Max extent.base index.currentOffset = .ok extent.next := by
        rw [count]
        exact if_pos (held.offsets empty)
      rw [if_pos positive, sum]
      rfl
  · constructor
    case held => exact segment_new_held cfg dir terms extent held
    case base => rfl
    case next => rfl
    case size => rw [segment_new_store, Store.new, List.append_nil]
    case index => exact same
    case mapped => rw [segment_new_index]; exact length_opened_index _ _
    case synced => exact fun _ => rfl

theorem segment_new_ok (segment : Segment) (opened : (Segment.new cfg dir extent.base).2 = .ok segment) :
    Loaded cfg terms (dir.applyAll (Segment.new cfg dir extent.base).1) extent segment ∧ segment.store.buffer = [] := by
  cases found : (Index.new cfg.maxSizeBytes extent.base (dir.index extent.base)).2 with
  | error failure =>
      simp only [Segment.new, found, bind, Except.bind] at opened
      cases opened
  | ok index =>
      obtain ⟨same, loaded⟩ := segment_new_loaded cfg dir terms extent held index found
      cases same.symm.trans opened
      exact ⟨loaded, rfl⟩

theorem segment_new_opens (countable : Recoverable extent.records.length cfg.maxSizeBytes ∨
    (dir.index extent.base).length = entireWidth * extent.records.length ∧ extent.records.length < 2 ^ 32) :
    ∃ segment, (Segment.new cfg dir extent.base).2 = .ok segment := by
  have found := index_opens _ _ _ extent.positions held.indexed (by rw [length_positions]; exact held.length)
    (by rw [length_positions]; exact countable)
  exact ⟨_, (segment_new_loaded cfg dir terms extent held _ found).1⟩

end New

end RaftLog.SegmentLog
