import RaftLog.SegmentLog.Lookup

set_option autoImplicit false

namespace RaftLog.SegmentLog

open Lib

section Close

variable (cfg : Config) (terms : Terms)

theorem close_writes_base (segment : Segment) : ∀ write ∈ segment.close.2, write.base = segment.baseOffset := by
  intro write member
  rcases List.mem_append.mp member with flush | cut
  · exact flush_writes_base segment write flush
  · rw [List.mem_singleton.mp cut]
    rfl

def closeWrites (pairs : List (Extent × Segment)) : List Write := pairs.flatMap fun pair => pair.2.close.2

-- Closing the segments one after the other leaves each as its own close did.
theorem close_all (pairs : List (Extent × Segment)) (dir : Dir) (apart : (pairs.map fun pair => pair.1.base).Nodup)
    (loaded : ∀ pair ∈ pairs, Loaded cfg terms dir pair.1 pair.2) :
    ∀ pair ∈ pairs, Held cfg terms (dir.applyAll (closeWrites pairs)) [] pair.1 ∧
      ((dir.applyAll (closeWrites pairs)).index pair.1.base).length = entireWidth * pair.1.records.length := by
  induction pairs generalizing dir with
  | nil => simp
  | cons first rest ih =>
      obtain ⟨fresh, apart⟩ := List.nodup_cons.mp apart
      have here := loaded first List.mem_cons_self
      have different : ∀ pair ∈ rest, pair.1.base ≠ first.1.base := by
        intro pair member same
        exact fresh (List.mem_map.mpr ⟨pair, member, same⟩)
      rw [closeWrites, List.flatMap_cons, apply_all_append]
      intro pair member
      rcases List.mem_cons.mp member with rfl | tail
      · have untouched : ∀ write ∈ closeWrites rest, pair.1.base ≠ write.base := by
          intro write written
          obtain ⟨other, closed, own⟩ := List.mem_flatMap.mp written
          rw [close_writes_base other.2 write own, (loaded other (List.mem_cons_of_mem _ closed)).base]
          exact (different other closed).symm
        obtain ⟨held, length⟩ := close_held cfg terms dir pair.1 pair.2 here
        have index := apply_all_index_other pair.1.base (closeWrites rest) (dir.applyAll pair.2.close.2) untouched
        exact ⟨held_same cfg terms _ _ pair.1 (apply_all_store_other _ _ _ untouched) index _ held, index ▸ length⟩
      · apply ih _ apart ?_ pair tail
        intro other later
        have untouched : ∀ write ∈ first.2.close.2, other.1.base ≠ write.base := by
          intro write written
          rw [close_writes_base first.2 write written, here.base]
          exact different other later
        apply loaded_same cfg terms dir
        · exact apply_all_store_other _ _ dir untouched
        · exact apply_all_index_other _ _ dir untouched
        · exact loaded other (List.mem_cons_of_mem _ later)

end Close

section Down

variable (cfg : Config) (terms : Terms) (dir : Dir) (log : Log) (before : List (Extent × Segment))
  (active : Extent × Segment) (up : Up cfg terms dir log before active)

include up

theorem log_close_writes : log.close.2.1 = closeWrites (before ++ [active]) := by
  have all : log.segments.take (log.activeIndex + 1) = (before ++ [active]).map Prod.snd := by
    rw [up.segments, up.activeIndex]
    exact List.take_of_length_le (by simp)
  rw [Log.close, all, closeWrites, List.flatMap_map, List.flatMap_map]

theorem log_close_ok : log.close.2.2 = .ok () := by
  apply if_pos
  rw [up.segments, up.activeIndex]
  simp

-- A closed directory, each index as long as its entries.
def Tidy (dir : Dir) (extents : List Extent) : Prop :=
  ∀ extent ∈ extents, (dir.index extent.base).length = entireWidth * extent.records.length

theorem log_close_down : Down cfg terms (dir.applyAll log.close.2.1) (before.map Prod.fst) active.1 ∧
    Tidy (dir.applyAll log.close.2.1) (before.map Prod.fst ++ [active.1]) := by
  have ascending := extents_ascending _ _ _ up.extents
  rw [← extents_of_snoc, ← pair_bases] at ascending
  have closed := close_all cfg terms (before ++ [active]) dir (ascending.imp Nat.ne_of_lt) up.loaded
  rw [log_close_writes cfg terms dir log before active up]
  have each : ∀ extent ∈ before.map Prod.fst ++ [active.1], ∃ pair ∈ before ++ [active], pair.1 = extent := by
    rw [← extents_of_snoc]
    exact fun extent member => List.mem_map.mp member
  refine ⟨⟨up.extents, ?_, .inl ?_⟩, ?_⟩
  · intro extent member
    obtain ⟨pair, closes, rfl⟩ := each extent member
    exact (closed pair closes).1
  · intro base
    have there : (∃ write ∈ closeWrites (before ++ [active]), base = write.base) → dir.has base := by
      rintro ⟨write, written, rfl⟩
      obtain ⟨pair, closes, own⟩ := List.mem_flatMap.mp written
      rw [close_writes_base pair.2 write own, (up.loaded pair closes).base, up.listed]
      exact List.mem_map_of_mem closes
    rw [apply_all_has, or_iff_left_of_imp there, up.listed, pair_bases, extents_of_snoc]
  · intro extent member
    obtain ⟨pair, closes, rfl⟩ := each extent member
    exact (closed pair closes).2

def crashedExtents (pairs : List (Extent × Segment)) : List Extent := pairs.map fun pair => pair.1.crashed pair.2.store.buffer

-- A crash between two operations takes what the buffers hold.
theorem log_crash_down (safe : terms.whole = true → ∀ pair ∈ before ++ [active], pair.2.store.buffer = [])
    (settled : active.2.store.buffer = []) : Down cfg terms dir (crashedExtents before) active.1 := by
  have last : active.1 = active.1.crashed active.2.store.buffer := by rw [settled]; rfl
  have all : crashedExtents before ++ [active.1] = (before ++ [active]).map fun pair => pair.1.crashed pair.2.store.buffer := by
    rw [List.map_append, List.map_singleton, ← last]
    rfl
  constructor
  case extents =>
    refine ⟨?_, ?_, up.extents.whole⟩
    · have chained := extents_chained before active _ up.extents
      rw [extentsOf, chained_map (fun pair : Extent × Segment => pair.1.base) (fun pair => pair.1.records) _ _ _
        (fun _ => rfl) (fun _ => rfl)] at chained
      rw [all]
      exact (chained_map _ _ _ _ _ (fun _ => rfl) (fun _ => rfl) _ _).mpr chained
    · intro extent member
      obtain ⟨pair, old, rfl⟩ := List.mem_map.mp member
      exact up.extents.filled pair.1 (List.mem_map_of_mem old)
  case held =>
    rw [all]
    intro extent member
    obtain ⟨pair, old, rfl⟩ := List.mem_map.mp member
    exact crashed_held cfg terms dir pair.1 pair.2 (up.loaded pair old) fun whole => safe whole pair old
  case listed =>
    left
    intro base
    rw [up.listed, all, List.map_map]
    rfl

end Down

section Drop

variable (cfg : Config) (terms : Terms) (dir : Dir) (log : Log) (before : List (Extent × Segment))
  (active : Extent × Segment) (up : Up cfg terms dir log before active)

-- What the segments' BufWriters do when the log is dropped.
def Log.dropWrites (log : Log) : List Write := log.segments.flatMap Segment.flushWrites

include up

-- The first segments are flushed, one after the other.
theorem up_flushed_through (count : Nat) (within : count ≤ log.segments.length) :
    ∃ later last, Up cfg terms (dir.applyAll ((log.segments.take count).flatMap Segment.flushWrites))
      ⟨log.activeIndex, (log.segments.take count).map Segment.flush ++ log.segments.drop count⟩ later last ∧
      extentsOf later last = extentsOf before active := by
  induction count with
  | zero => exact ⟨before, active, up, rfl⟩
  | succ count ih =>
      obtain ⟨later, last, opened, same⟩ := ih (Nat.le_of_succ_le within)
      have here : log.segments[count]? = some log.segments[count] := List.getElem?_eq_getElem within
      have length : ((log.segments.take count).map Segment.flush).length = count := by
        rw [List.length_map, List.length_take_of_le (Nat.le_of_succ_le within)]
      have place : (later ++ [last]).map Prod.snd = (log.segments.take count).map Segment.flush ++ log.segments.drop count :=
        opened.segments.symm
      have found : ((later ++ [last]).map Prod.snd)[count]? = some log.segments[count] := by
        rw [place, List.getElem?_append_right length.le, length, Nat.sub_self, List.getElem?_drop]
        exact here
      rw [List.getElem?_map, Option.map_eq_some_iff] at found
      obtain ⟨pair, there, segment⟩ := found
      obtain ⟨further, final, flushed, kept⟩ := up_flushed cfg terms _ _ later last opened count pair there
      refine ⟨further, final, ?_, kept.trans same⟩
      rw [segment] at flushed
      dsimp only at flushed
      rw [List.set_append_right _ _ length.le, length, Nat.sub_self, List.drop_eq_getElem_cons within, List.set_cons_zero] at flushed
      rw [← List.take_append_getElem within, List.flatMap_append, apply_all_append, List.map_append, List.append_assoc]
      simpa using flushed

-- A log that has been dropped has everything in its files.
theorem log_drop_down : Down cfg terms (dir.applyAll log.dropWrites) (before.map Prod.fst) active.1 := by
  obtain ⟨later, last, opened, same⟩ := up_flushed_through cfg terms dir log before active up _ le_rfl
  rw [List.take_length, List.drop_length, List.append_nil] at opened
  have empty : ∀ pair ∈ later ++ [last], pair.2.store.buffer = [] := by
    intro pair member
    have flushed : pair.2 ∈ log.segments.map Segment.flush := by
      rw [show log.segments.map Segment.flush = _ from opened.segments]
      exact List.mem_map_of_mem member
    obtain ⟨segment, _, own⟩ := List.mem_map.mp flushed
    rw [← own]
    rfl
  have crashed : crashedExtents later = later.map Prod.fst := by
    apply List.map_congr_left
    intro pair member
    rw [Extent.crashed, empty pair (List.mem_append_left _ member)]
    rfl
  have down := log_crash_down cfg terms _ _ later last opened (fun _ => empty)
    (empty last (List.mem_append_right _ List.mem_cons_self))
  rw [extents_of_snoc, extents_of_snoc] at same
  obtain ⟨sameBefore, sameActive⟩ := List.append_inj' same rfl
  rwa [crashed, sameBefore, List.singleton_inj.mp sameActive] at down

end Drop
end RaftLog.SegmentLog
