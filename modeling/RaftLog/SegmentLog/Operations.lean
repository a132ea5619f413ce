import RaftLog.SegmentLog.Appending
import RaftLog.SegmentLog.Opening
import RaftLog.SegmentLog.Reading

set_option autoImplicit false

namespace RaftLog.SegmentLog

open Lib

section Up

variable (cfg : Config) (terms : Terms) (dir : Dir) (log : Log) (before : List (Extent × Segment))
  (active : Extent × Segment)

def extentsOf (before : List (Extent × Segment)) (active : Extent × Segment) : List Extent := (before ++ [active]).map Prod.fst

theorem extents_of_snoc : extentsOf before active = before.map Prod.fst ++ [active.1] := by simp [extentsOf]

variable (up : Up cfg terms dir log before active)

include up

theorem up_active : log.segments[log.activeIndex]? = some active.2 := by
  rw [up.segments, up.activeIndex]
  simp

theorem up_set (segment : Segment) : log.segments.set log.activeIndex segment = before.map Prod.snd ++ [segment] := by
  rw [up.segments, up.activeIndex]
  simp

theorem up_active_loaded : Loaded cfg terms dir active.1 active.2 :=
  up.loaded active (List.mem_append_right _ List.mem_cons_self)

theorem up_bases_below (pair : Extent × Segment) (member : pair ∈ before) : pair.1.base < active.1.base := by
  have ascending := extents_ascending _ _ _ up.extents
  rw [List.map_append, List.pairwise_append] at ascending
  exact ascending.2.2 _ (List.mem_map_of_mem (List.mem_map_of_mem member)) _ List.mem_cons_self

-- Writes to the active segment's files leave every other segment loaded.
theorem up_after (writes : List Write) (own : ∀ write ∈ writes, write.base = active.1.base) (next : Extent × Segment)
    (loaded : Loaded cfg terms (dir.applyAll writes) next.1 next.2) (sameBase : next.1.base = active.1.base)
    (whole : next.1.lost = []) :
    Up cfg terms (dir.applyAll writes) { log with segments := log.segments.set log.activeIndex next.2 } before next := by
  constructor
  case extents =>
    refine ⟨?_, up.extents.filled, whole⟩
    have chained := (chained_last Extent.base Extent.records _ _ _).mp up.extents.chained
    exact (chained_last Extent.base Extent.records _ _ _).mpr ⟨chained.1, sameBase.trans chained.2⟩
  case loaded =>
    intro pair member
    rcases List.mem_append.mp member with old | new
    · have untouched : ∀ write ∈ writes, pair.1.base ≠ write.base := by
        intro write written
        rw [own write written]
        exact (up_bases_below cfg terms dir log before active up pair old).ne
      apply loaded_same cfg terms dir
      · exact apply_all_store_other _ _ dir untouched
      · exact apply_all_index_other _ _ dir untouched
      · exact up.loaded pair (List.mem_append_left _ old)
    · rw [List.mem_singleton.mp new]
      exact loaded
  case listed =>
    intro base
    have here : ∀ write ∈ writes, base = write.base → dir.has base := by
      intro write written same
      rw [up.listed, same, own write written]
      exact List.mem_map_of_mem (List.mem_append_right _ List.mem_cons_self)
    rw [apply_all_has, or_iff_left_of_imp fun ⟨write, written, same⟩ => here write written same, up.listed]
    simp [sameBase]
  case segments =>
    rw [List.map_append]
    exact up_set cfg terms dir log before active up next.2
  case activeIndex => exact up.activeIndex

end Up

theorem absent_files (dir : Dir) (base : Nat) (absent : ¬ dir.has base) : dir.store base = [] ∧ dir.index base = [] := by
  rw [Dir.has, not_or] at absent
  rw [Dir.store, Dir.index, AList.lookup_eq_none.mpr absent.1, AList.lookup_eq_none.mpr absent.2]
  exact ⟨rfl, rfl⟩

theorem fresh_held (cfg : Config) (terms : Terms) (dir : Dir) (base : Nat) (store : dir.store base = [])
    (index : dir.index base = []) : Held cfg terms dir [] ⟨base, [], []⟩ := by
  constructor
  case framed => simp
  case indexed => rw [index]; exact indexed_nil
  case length => exact .inl (by rw [index]; rfl)
  case room => exact Nat.zero_le _
  case fits => rw [Extent.stream, store]; exact Nat.zero_le _
  case few => exact Nat.zero_le _
  case offsets => exact fun some => absurd rfl some
  case kept => exact fun _ => rfl

section Rotate

variable (cfg : Config) (terms : Terms) (dir : Dir) (log : Log) (before : List (Extent × Segment))
  (active : Extent × Segment) (up : Up cfg terms dir log before active) (filled : active.1.records ≠ [])

def Extent.following (extent : Extent) : Extent := ⟨extent.next, [], []⟩

include up filled

theorem next_absent : ¬ dir.has active.1.next := by
  have some := List.length_pos_iff.mpr filled
  intro present
  obtain ⟨pair, member, same⟩ := List.mem_map.mp ((up.listed _).mp present)
  rw [Extent.next] at same
  rcases List.mem_append.mp member with old | new
  · have below := up_bases_below cfg terms dir log before active up pair old
    omega
  · rw [List.mem_singleton.mp new] at same
    omega

theorem following_held : Held cfg terms dir [] active.1.following := by
  obtain ⟨store, index⟩ := absent_files dir _ (next_absent cfg terms dir log before active up filled)
  exact fresh_held cfg terms dir active.1.next store index

-- Log::append starts the next segment where the full one ends.
theorem rotate_up : ∃ segment, (Segment.new cfg dir active.1.next).2 = .ok segment ∧
    Up cfg terms (dir.applyAll (Segment.new cfg dir active.1.next).1) ⟨log.activeIndex + 1, log.segments ++ [segment]⟩
      (before ++ [active]) (active.1.following, segment) := by
  have held := following_held cfg terms dir log before active up filled
  have absent := next_absent cfg terms dir log before active up filled
  have index := (absent_files dir _ absent).2
  obtain ⟨segment, opened⟩ := segment_new_opens cfg dir terms active.1.following held
    (.inr ⟨by rw [Extent.following, index]; rfl, Nat.two_pow_pos 32⟩)
  have fresh := (segment_new_ok cfg dir terms active.1.following held segment opened).1
  refine ⟨segment, opened, ?_⟩
  constructor
  case extents =>
    rw [List.map_append]
    refine ⟨?_, ?_, rfl⟩
    · have chained := (chained_last Extent.base Extent.records _ _ _).mp up.extents.chained
      refine (chained_last Extent.base Extent.records _ _ _).mpr ⟨up.extents.chained, ?_⟩
      rw [contents_append, List.length_append, ← Nat.add_assoc, ← chained.2]
      simp [contents, Extent.following, Extent.next]
    · intro extent member
      rcases List.mem_append.mp member with old | new
      · exact up.extents.filled extent old
      · rw [List.mem_singleton.mp new]
        exact filled
  case loaded =>
    intro pair member
    rcases List.mem_append.mp member with old | new
    · have untouched : ∀ write ∈ (Segment.new cfg dir active.1.next).1, pair.1.base ≠ write.base := by
        intro write written same
        rw [segment_new_base cfg dir _ write written] at same
        exact absent (same ▸ (up.listed _).mpr (List.mem_map_of_mem old))
      apply loaded_same cfg terms dir
      · exact apply_all_store_other _ _ dir untouched
      · exact apply_all_index_other _ _ dir untouched
      · exact up.loaded pair old
    · rw [List.mem_singleton.mp new]
      exact fresh
  case listed =>
    intro base
    rw [segment_new_has, up.listed]
    simp [Extent.following, or_assoc]
  case segments => simp [up.segments]
  case activeIndex => simp [up.activeIndex]

end Rotate

section Append

variable (cfg : Config) (terms : Terms) (dir : Dir) (log : Log) (before : List (Extent × Segment))
  (active : Extent × Segment) (record : Bytes) (up : Up cfg terms dir log before active)

def Log.put (log : Log) (segment : Segment) : Log := { log with segments := log.segments.set log.activeIndex segment }

-- Everything Log::append writes before it looks whether to rotate.
def addWrites (cfg : Config) (active : Extent × Segment) (record : Bytes) : List Write :=
  storeWrites active.1.base (active.2.chunks cfg record) ++
    copies active.1.base active.1.records.length (entireWidth * active.1.records.length) active.2.store.size

def Full (cfg : Config) (extent : Extent) : Prop := cfg.maxSizeBytes < entireWidth * extent.records.length + entireWidth

include up

theorem log_append_full (full : Full cfg active.1) : log.append cfg dir record =
    (log.put (active.2.stored cfg record), storeWrites active.1.base (active.2.chunks cfg record),
      .error (.io .unexpectedEof "index is full")) := by
  have loaded := up_active_loaded cfg terms dir log before active up
  rw [Log.append, up_active cfg terms dir log before active up]
  simp only [segment_append_full cfg terms dir active.1 active.2 record loaded full]
  rw [loaded.base]
  rfl

theorem log_append_kept (room : ¬ Full cfg active.1) (offsets : active.1.next < u64Max)
    (notMaxed : (active.2.added cfg record).isMaxed cfg = false) :
    log.append cfg dir record = (log.put (active.2.added cfg record), addWrites cfg active record, .ok active.1.next) := by
  have loaded := up_active_loaded cfg terms dir log before active up
  rw [Log.append, up_active cfg terms dir log before active up]
  simp only [segment_append_room cfg terms dir active.1 active.2 record loaded (Nat.le_of_not_lt room) offsets, notMaxed]
  rw [loaded.base, loaded.next]
  rfl

theorem log_append_rotates (room : ¬ Full cfg active.1) (offsets : active.1.next < u64Max)
    (maxed : (active.2.added cfg record).isMaxed cfg = true) (segment : Segment)
    (opened : (Segment.new cfg (dir.applyAll (addWrites cfg active record)) (active.1.next + 1)).2 = .ok segment) :
    log.append cfg dir record =
      (⟨log.activeIndex + 1, (log.put (active.2.added cfg record)).segments ++ [segment]⟩,
        addWrites cfg active record ++ (Segment.new cfg (dir.applyAll (addWrites cfg active record)) (active.1.next + 1)).1,
        .ok active.1.next) := by
  have loaded := up_active_loaded cfg terms dir log before active up
  have writes : addWrites cfg active record = storeWrites active.2.baseOffset (active.2.chunks cfg record) ++
      copies active.2.baseOffset active.1.records.length (entireWidth * active.1.records.length) active.2.store.size := by
    rw [loaded.base]
    rfl
  rw [Log.append, up_active cfg terms dir log before active up]
  simp only [segment_append_room cfg terms dir active.1 active.2 record loaded (Nat.le_of_not_lt room) offsets, maxed,
    ← writes, loaded.next]
  cases new : Segment.new cfg (dir.applyAll (addWrites cfg active record)) (active.1.next + 1) with
  | mk more result =>
      rw [new] at opened
      cases opened
      rfl

end Append

-- The three ways an append ends.
inductive AppendStep (cfg : Config) (dir : Dir) (log : Log) (before : List (Extent × Segment)) (active : Extent × Segment)
    (record : Bytes) : List (Extent × Segment) → Extent × Segment → Log × List Write × Except Failure Nat → Prop where
  | full (full : Full cfg active.1) :
      AppendStep cfg dir log before active record before (active.1, active.2.stored cfg record)
        (log.put (active.2.stored cfg record), storeWrites active.1.base (active.2.chunks cfg record),
          .error (.io .unexpectedEof "index is full"))
  | kept (room : ¬ Full cfg active.1) (notMaxed : (active.2.added cfg record).isMaxed cfg = false) :
      AppendStep cfg dir log before active record before
        (active.1.add active.2.store.size record, active.2.added cfg record)
        (log.put (active.2.added cfg record), addWrites cfg active record, .ok active.1.next)
  | rotates (room : ¬ Full cfg active.1) (maxed : (active.2.added cfg record).isMaxed cfg = true) (segment : Segment)
      (opened : (Segment.new cfg (dir.applyAll (addWrites cfg active record)) (active.1.next + 1)).2 = .ok segment) :
      AppendStep cfg dir log before active record
        (before ++ [(active.1.add active.2.store.size record, active.2.added cfg record)])
        ((active.1.add active.2.store.size record).following, segment)
        (⟨log.activeIndex + 1, (log.put (active.2.added cfg record)).segments ++ [segment]⟩,
          addWrites cfg active record ++ (Segment.new cfg (dir.applyAll (addWrites cfg active record)) (active.1.next + 1)).1,
          .ok active.1.next)

section AppendUp

variable (cfg : Config) (terms : Terms) (dir : Dir) (log : Log) (before : List (Extent × Segment))
  (active : Extent × Segment) (record : Bytes) (up : Up cfg terms dir log before active)
  (fits : active.2.store.size + (frame lengthWidth record).length ≤ i64Max)

theorem add_writes_base : ∀ write ∈ addWrites cfg active record, write.base = active.1.base := by
  intro write member
  rcases List.mem_append.mp member with stored | copied
  · exact store_writes_base _ _ write stored
  · rcases List.mem_pair.mp copied with rfl | rfl
    · rfl
    · rfl

theorem add_next (extent : Extent) (position : Nat) : (extent.add position record).next = extent.next + 1 := by
  simp [Extent.next, Extent.add, Nat.add_assoc]

include up fits

theorem stored_up : Up cfg terms (dir.applyAll (storeWrites active.1.base (active.2.chunks cfg record)))
    (log.put (active.2.stored cfg record)) before (active.1, active.2.stored cfg record) := by
  apply up_after cfg terms dir log before active up _ (store_writes_base _ _) (active.1, active.2.stored cfg record)
  · exact stored_loaded cfg terms dir active.1 active.2 record (up_active_loaded cfg terms dir log before active up)
      up.extents.whole fits
  · rfl
  · exact up.extents.whole

variable (room : ¬ Full cfg active.1) (few : active.1.records.length < terms.limit) (offsets : active.1.next < u64Max)

include room few offsets

theorem added_up : Up cfg terms (dir.applyAll (addWrites cfg active record)) (log.put (active.2.added cfg record)) before
    (active.1.add active.2.store.size record, active.2.added cfg record) := by
  apply up_after cfg terms dir log before active up _ (add_writes_base cfg active record)
    (active.1.add active.2.store.size record, active.2.added cfg record)
  · exact added_loaded cfg terms dir active.1 active.2 record (up_active_loaded cfg terms dir log before active up)
      up.extents.whole fits (Nat.le_of_not_lt room) few offsets
  · rfl
  · exact up.extents.whole

theorem rotated_up : ∃ segment,
    (Segment.new cfg (dir.applyAll (addWrites cfg active record)) (active.1.next + 1)).2 = .ok segment ∧
      Up cfg terms
        ((dir.applyAll (addWrites cfg active record)).applyAll
          (Segment.new cfg (dir.applyAll (addWrites cfg active record)) (active.1.next + 1)).1)
        ⟨log.activeIndex + 1, (log.put (active.2.added cfg record)).segments ++ [segment]⟩
        (before ++ [(active.1.add active.2.store.size record, active.2.added cfg record)])
        ((active.1.add active.2.store.size record).following, segment) := by
  have added := added_up cfg terms dir log before active record up fits room few offsets
  have rotated := rotate_up cfg terms _ _ before _ added (by simp [Extent.add])
  rw [add_next] at rotated
  exact rotated

omit room few offsets

theorem append_up (few : ¬ Full cfg active.1 → active.1.records.length < terms.limit ∧ active.1.next < u64Max) :
    ∃ later last, AppendStep cfg dir log before active record later last (log.append cfg dir record) ∧
      Up cfg terms (dir.applyAll (log.append cfg dir record).2.1) (log.append cfg dir record).1 later last := by
  by_cases full : Full cfg active.1
  · rw [log_append_full cfg terms dir log before active record up full]
    exact ⟨_, _, .full full, stored_up cfg terms dir log before active record up fits⟩
  obtain ⟨few, offsets⟩ := few full
  cases maxed : (active.2.added cfg record).isMaxed cfg with
  | false =>
      rw [log_append_kept cfg terms dir log before active record up full offsets maxed]
      exact ⟨_, _, .kept full maxed, added_up cfg terms dir log before active record up fits full few offsets⟩
  | true =>
      obtain ⟨segment, opened, rotated⟩ := rotated_up cfg terms dir log before active record up fits full few offsets
      rw [log_append_rotates cfg terms dir log before active record up full offsets maxed segment opened]
      refine ⟨_, _, .rotates full maxed segment opened, ?_⟩
      rw [apply_all_append]
      exact rotated

end AppendUp

end RaftLog.SegmentLog
