import RaftLog.SegmentLog.ReadBack

set_option autoImplicit false

namespace RaftLog.SegmentLog

open Lib

-- What opening makes of a segment when the index alone is there to be trusted: whether
-- the index fits the limit, and what the store has, does not matter.
structure Counted (cfg : Config) (extent : Extent) (segment : Segment) : Prop where
  base : segment.baseOffset = extent.base
  next : segment.nextOffset = extent.next
  index : segment.index = ⟨entireWidth * extent.records.length, cfg.maxSizeBytes⟩
  buffer : segment.store.buffer = []

-- The index files of a directory, as a closed log or a dead process leaves them.
structure Listing (cfg : Config) (dir : Dir) (extents : List Extent) : Prop where
  chained : Chained Extent.base Extent.records cfg.initalOffset extents
  ascending : (extents.map Extent.base).Pairwise (· < ·)
  offsets : (if dir.bases = [] then [cfg.initalOffset] else dir.bases) = extents.map Extent.base
  indexed : ∀ extent ∈ extents, Indexed (dir.index extent.base) extent.positions
  length : ∀ extent ∈ extents, (dir.index extent.base).length = entireWidth * extent.records.length ∨
    (dir.index extent.base).length = cfg.maxSizeBytes

section Open

variable (cfg : Config) (dir : Dir)

theorem segment_new_counted (extent : Extent) (indexed : Indexed (dir.index extent.base) extent.positions)
    (length : (dir.index extent.base).length = entireWidth * extent.records.length ∨
      (dir.index extent.base).length = cfg.maxSizeBytes) (segment : Segment)
    (opened : (Segment.new cfg dir extent.base).2 = .ok segment) : Counted cfg extent segment := by
  obtain ⟨index, found, rfl⟩ := segment_new_inv cfg dir extent.base segment opened
  have same := index_opened _ _ _ extent.positions index indexed (by rw [length_positions]; exact length) found
  rw [length_positions] at same
  have count : index.currentOffset = extent.records.length := by
    rw [same]
    exact Nat.mul_div_cancel_left _ (by decide)
  refine ⟨rfl, ?_, same, rfl⟩
  dsimp only
  rw [count, Extent.next]

theorem open_segments_counted (extents : List Extent) (apart : (extents.map Extent.base).Nodup)
    (indexed : ∀ extent ∈ extents, Indexed (dir.index extent.base) extent.positions)
    (length : ∀ extent ∈ extents, (dir.index extent.base).length = entireWidth * extent.records.length ∨
      (dir.index extent.base).length = cfg.maxSizeBytes)
    (segments : List Segment) (opened : (openSegments cfg dir (extents.map Extent.base)).2 = .ok segments) :
    List.Forall₂ (Counted cfg) extents segments := by
  induction extents generalizing dir segments with
  | nil =>
      cases opened
      exact .nil
  | cons extent rest ih =>
      obtain ⟨fresh, apart⟩ := List.nodup_cons.mp apart
      rw [List.map_cons] at opened
      obtain ⟨segment, more, new, found, rfl, _⟩ := open_segments_cons cfg dir _ _ segments opened
      have kept : ∀ other ∈ rest, (dir.applyAll (Segment.new cfg dir extent.base).1).index other.base = dir.index other.base := by
        intro other member
        apply apply_all_index_other
        intro write written same
        rw [segment_new_base cfg dir extent.base write written] at same
        exact fresh (same ▸ List.mem_map_of_mem member)
      have first := segment_new_counted cfg dir extent (indexed extent List.mem_cons_self) (length extent List.mem_cons_self)
      refine .cons (first segment new) (ih _ apart ?_ ?_ more found)
      · intro other member
        rw [kept other member]
        exact indexed other (List.mem_cons_of_mem _ member)
      · intro other member
        rw [kept other member]
        exact length other (List.mem_cons_of_mem _ member)

-- Opening writes to no store.
theorem segment_new_stores (base other : Nat) : (dir.applyAll (Segment.new cfg dir base).1).store other = dir.store other := by
  by_cases same : other = base
  · rw [same]
    exact segment_new_store cfg dir base
  · apply apply_all_store_other
    intro write written
    rw [segment_new_base cfg dir base write written]
    exact same

theorem open_segments_stores (offsets : List Nat) (other : Nat) :
    (dir.applyAll (openSegments cfg dir offsets).1).store other = dir.store other := by
  induction offsets generalizing dir with
  | nil => rfl
  | cons off rest ih =>
      have first := segment_new_stores cfg dir off other
      rw [openSegments]
      cases new : Segment.new cfg dir off with
      | mk writes result =>
          rw [new] at first
          cases result with
          | error failure => exact first
          | ok segment =>
              dsimp only at first ⊢
              rw [apply_all_append, ih, first]

variable (extents : List Extent) (listing : Listing cfg dir extents) (log : Log)

include listing

theorem log_new_counted (opened : (Log.new cfg dir).2 = .ok log) :
    List.Forall₂ (Counted cfg) extents log.segments ∧ log.activeIndex = log.segments.length - 1 := by
  obtain ⟨segments, found, rfl⟩ := log_new_inv cfg dir log opened
  rw [listing.offsets] at found
  have apart := listing.ascending.imp Nat.ne_of_lt
  exact ⟨open_segments_counted cfg dir extents apart listing.indexed listing.length segments found, rfl⟩

-- A read goes to the segment of its offset.
theorem counted_read (counted : List.Forall₂ (Counted cfg) extents log.segments) (extent : Extent) (member : extent ∈ extents)
    (off : Nat) (least : extent.base ≤ off) (most : off < extent.next) (after : Dir) (buf : Bytes) :
    ∃ segment, Counted cfg extent segment ∧ (log.read after off buf).2.2 = (segment.read after off buf).2.2 := by
  obtain ⟨number, there, rfl⟩ := List.getElem_of_mem member
  have long := counted.length_eq
  have own := counted.get there (by omega)
  rw [List.get_eq_getElem, List.get_eq_getElem] at own
  have bound : log.segments.findIdx (·.isInRange off) < log.segments.length := by
    apply List.findIdx_lt_length_of_exists
    refine ⟨log.segments[number], List.getElem_mem _, ?_⟩
    simp only [Segment.isInRange, own.base, own.next, Bool.and_eq_true, decide_eq_true_eq]
    exact ⟨least, most⟩
  have inRange : log.segments[log.segments.findIdx (·.isInRange off)].isInRange off = true := List.findIdx_getElem (w := bound)
  generalize place : log.segments.findIdx (·.isInRange off) = cur at bound inRange
  have pair := counted.get (by omega) bound
  rw [List.get_eq_getElem, List.get_eq_getElem] at pair
  simp only [Segment.isInRange, pair.base, pair.next, Bool.and_eq_true, decide_eq_true_eq] at inRange
  have same := chained_unique Extent.base Extent.records _ _ listing.chained extents[cur] extents[number]
    (List.getElem_mem _) member off inRange ⟨least, most⟩
  rw [same] at pair
  refine ⟨log.segments[cur], pair, ?_⟩
  rw [Log.read, place, List.getElem?_eq_getElem bound]

end Open

section Last

variable (cfg : Config) (extent : Extent) (segment : Segment) (counted : Counted cfg extent segment)
  (filled : 0 < extent.records.length) (few : extent.records.length ≤ 2 ^ 32) (dir : Dir) (buf : Bytes)

include counted filled few

-- The slot of the last record ends where the index does.
theorem read_last : (segment.read dir (extent.next - 1) buf).2.2 =
    match segment.index.read (dir.index segment.baseOffset) (extent.records.length - 1) with
    | .error failure => (buf, .error failure)
    | .ok (_, position) => fetch (dir.store extent.base) position buf := by
  have next : extent.next = extent.base + extent.records.length := rfl
  have inside : ¬ (extent.next - 1 < segment.baseOffset ∨ extent.next - 1 ≥ segment.nextOffset) := by
    rw [counted.base, counted.next]
    omega
  have relative : segment.relative (extent.next - 1) = extent.records.length - 1 := by
    rw [Segment.relative, counted.base]
    omega
  rw [Segment.read, if_neg inside, relative]
  cases segment.index.read (dir.index segment.baseOffset) (extent.records.length - 1) with
  | error failure => rfl
  | ok slot =>
      simp only [Store.flush, counted.buffer, flushed, storeWrites, if_true, List.map_nil, apply_all_nil, counted.base]

omit counted in
theorem last_slot : (extent.records.length - 1) * entireWidth + entireWidth = entireWidth * extent.records.length := by
  unfold entireWidth offWidth positionWidth
  omega

-- An index that does not fit is read behind the end of its map.
theorem read_cut (cut : cfg.maxSizeBytes < entireWidth * extent.records.length) :
    (segment.read dir (extent.next - 1) buf).2.2 = (buf, .error (.panic "range end index out of range for slice")) := by
  have slot : segment.index.read (dir.index segment.baseOffset) (extent.records.length - 1) =
      .error (.panic "range end index out of range for slice") := by
    rw [Index.read, counted.index]
    dsimp only
    rw [last_slot extent filled few, if_neg (Nat.lt_irrefl _), if_pos cut]
  rw [read_last cfg extent segment counted filled few dir buf, slot]

-- A record whose store is gone cannot be read.
theorem read_hollow (room : entireWidth * extent.records.length ≤ cfg.maxSizeBytes) (hollow : dir.store extent.base = []) :
    (segment.read dir (extent.next - 1) buf).2.2 = (buf, .error (.io .unexpectedEof "failed to fill whole buffer")) := by
  obtain ⟨slot, read⟩ : ∃ slot, segment.index.read (dir.index segment.baseOffset) (extent.records.length - 1) = .ok slot := by
    rw [Index.read, counted.index]
    dsimp only
    rw [last_slot extent filled few, if_neg (Nat.lt_irrefl _), if_neg (Nat.not_lt.mpr room)]
    exact ⟨_, rfl⟩
  rw [read_last cfg extent segment counted filled few dir buf, read, hollow]
  simp [fetch, readExactAt, slice, lengthWidth]

end Last

end RaftLog.SegmentLog
