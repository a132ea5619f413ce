import RaftLog.SegmentLog.Stopping

set_option autoImplicit false

namespace RaftLog.SegmentLog

open Lib

-- The write without which the one before it leaves a slot that looks written.
def Write.torn : Write → Bool
  | .copyPosition _ _ _ | .fillIndex _ => true
  | _ => false

section Synced

variable (cfg : Config) (terms : Terms) (dir : Dir) (log : Log) (before : List (Extent × Segment))
  (active : Extent × Segment) (up : Up cfg terms dir log before active) (synced : cfg.syncWrites = true)

include up synced

theorem synced_held (pair : Extent × Segment) (member : pair ∈ before ++ [active]) : Held cfg terms dir [] pair.1 := by
  have loaded := up.loaded pair member
  have held := loaded.held
  rw [loaded.synced synced] at held
  exact held

-- The process dies when it has written to the active segment's files.
theorem down_at (writes : List Write) (own : ∀ write ∈ writes, write.base = active.1.base) (extent : Extent)
    (held : Held cfg terms (dir.applyAll writes) [] extent) (sameBase : extent.base = active.1.base)
    (whole : extent.lost = []) : Down cfg terms (dir.applyAll writes) (before.map Prod.fst) extent := by
  constructor
  case extents =>
    refine ⟨?_, up.extents.filled, whole⟩
    have chained := (chained_last Extent.base Extent.records _ _ _).mp up.extents.chained
    exact (chained_last Extent.base Extent.records _ _ _).mpr ⟨chained.1, sameBase.trans chained.2⟩
  case held =>
    intro other member
    rcases List.mem_append.mp member with old | new
    · obtain ⟨pair, there, rfl⟩ := List.mem_map.mp old
      have untouched : ∀ write ∈ writes, pair.1.base ≠ write.base := by
        intro write written
        rw [own write written]
        exact (up_bases_below cfg terms dir log before active up pair there).ne
      apply held_same cfg terms dir
      · exact apply_all_store_other _ _ dir untouched
      · exact apply_all_index_other _ _ dir untouched
      · exact synced_held cfg terms dir log before active up synced pair (List.mem_append_left _ there)
    · rw [List.mem_singleton.mp new]
      exact held
  case listed =>
    left
    intro base
    have here : (∃ write ∈ writes, base = write.base) → dir.has base := by
      rintro ⟨write, written, rfl⟩
      rw [up.listed, own write written]
      exact List.mem_map_of_mem (List.mem_append_right _ List.mem_cons_self)
    rw [apply_all_has, or_iff_left_of_imp here, up.listed]
    simp [sameBase]

theorem synced_down : Down cfg terms dir (before.map Prod.fst) active.1 :=
  down_at cfg terms dir log before active up synced [] (by simp) active.1
    (synced_held cfg terms dir log before active up synced active (List.mem_append_right _ List.mem_cons_self)) rfl
    up.extents.whole

section Adding

variable (record : Bytes) (fits : active.2.store.size + (frame lengthWidth record).length ≤ i64Max)

include fits

theorem storing_down (count : Nat) :
    Down cfg terms (dir.applyAll ((storeWrites active.1.base (active.2.chunks cfg record)).take count))
      (before.map Prod.fst) active.1 := by
  have loaded := up_active_loaded cfg terms dir log before active up
  rw [storeWrites, ← List.map_take]
  apply down_at cfg terms dir log before active up synced _ (store_writes_base _ _) active.1 ?_ rfl up.extents.whole
  exact store_writes_within cfg terms dir active.1 active.2 record loaded up.extents.whole fits count synced
    (loaded.synced synced)

theorem adding_down (room : ¬ Full cfg active.1) (few : active.1.records.length < terms.limit)
    (offsets : active.1.next < u64Max) (count : Nat)
    (safe : ∀ write, (addWrites cfg active record)[count]? = some write → write.torn = false) :
    Down cfg terms (dir.applyAll ((addWrites cfg active record).take count)) (before.map Prod.fst) active.1 ∨
      Down cfg terms (dir.applyAll ((addWrites cfg active record).take count)) (before.map Prod.fst)
        (active.1.add active.2.store.size record) := by
  have length : (storeWrites active.1.base (active.2.chunks cfg record)).length = (active.2.chunks cfg record).length :=
    List.length_map _
  by_cases storing : count ≤ (active.2.chunks cfg record).length
  · left
    rw [addWrites, List.take_append_of_le_length (length ▸ storing)]
    exact storing_down cfg terms dir log before active up synced record fits count
  right
  have second : count ≠ (active.2.chunks cfg record).length + 1 := by
    rintro rfl
    have torn := safe (.copyPosition active.1.base (entireWidth * active.1.records.length + offWidth)
      (toBytes positionWidth active.2.store.size))
    rw [addWrites, List.getElem?_append_right (by omega), length, Nat.add_sub_cancel_left] at torn
    cases torn rfl
  rw [List.take_of_length_le (by rw [addWrites, List.length_append, length, copies, List.length_cons, List.length_singleton]; omega)]
  have added := added_up cfg terms dir log before active record up fits room few offsets
  exact synced_down cfg terms _ _ before _ added synced

end Adding

section Rotating

variable (filled : active.1.records ≠ [])

include filled

-- The files of the next segment are there, and still empty.
theorem creating_down (writes : List Write) (own : ∀ write ∈ writes, write.base = active.1.next) (some : writes ≠ [])
    (store : (dir.applyAll writes).store active.1.next = []) (index : (dir.applyAll writes).index active.1.next = []) :
    Down cfg terms (dir.applyAll writes) ((before ++ [active]).map Prod.fst) active.1.following := by
  have absent := next_absent cfg terms dir log before active up filled
  constructor
  case extents =>
    obtain ⟨_, _, rotated⟩ := rotate_up cfg terms dir log before active up filled
    exact rotated.extents
  case held =>
    intro extent member
    rcases List.mem_append.mp member with old | new
    · obtain ⟨pair, there, rfl⟩ := List.mem_map.mp old
      have untouched : ∀ write ∈ writes, pair.1.base ≠ write.base := by
        intro write written same
        rw [own write written] at same
        exact absent (same ▸ (up.listed _).mpr (List.mem_map_of_mem there))
      apply held_same cfg terms dir
      · exact apply_all_store_other _ _ dir untouched
      · exact apply_all_index_other _ _ dir untouched
      · exact synced_held cfg terms dir log before active up synced pair there
    · rw [List.mem_singleton.mp new]
      exact fresh_held cfg terms _ _ store index
  case listed =>
    left
    intro base
    have here : (∃ write ∈ writes, base = write.base) ↔ base = active.1.next := by
      constructor
      · rintro ⟨write, written, rfl⟩
        exact own write written
      · intro same
        obtain ⟨write, written⟩ := List.exists_mem_of_ne_nil writes some
        exact ⟨write, written, same.trans (own write written).symm⟩
    rw [apply_all_has, here, up.listed]
    simp [Extent.following, or_assoc]

theorem rotating_down (count : Nat)
    (safe : ∀ write, (Segment.new cfg dir active.1.next).1[count]? = some write → write.torn = false) :
    Down cfg terms (dir.applyAll ((Segment.new cfg dir active.1.next).1.take count)) (before.map Prod.fst) active.1 ∨
      Down cfg terms (dir.applyAll ((Segment.new cfg dir active.1.next).1.take count)) ((before ++ [active]).map Prod.fst)
        active.1.following := by
  obtain ⟨store, index⟩ := absent_files dir _ (next_absent cfg terms dir log before active up filled)
  obtain ⟨_, _, rotated⟩ := rotate_up cfg terms dir log before active up filled
  have whole := synced_down cfg terms _ _ _ _ rotated synced
  have writes : (Segment.new cfg dir active.1.next).1 = [.createStore active.1.next, .createIndex active.1.next,
      .setIndexLen active.1.next cfg.maxSizeBytes, .fillIndex active.1.next] := by
    simp [Segment.new, Index.new, index]
  rw [writes] at safe whole ⊢
  rcases count with _ | _ | _ | _ | count
  · exact .inl (synced_down cfg terms dir log before active up synced)
  · right
    apply creating_down cfg terms dir log before active up synced filled [.createStore active.1.next]
    · simp [Write.base]
    · simp
    · simp [Dir.apply, store]
    · simp [Dir.apply, index]
  · right
    apply creating_down cfg terms dir log before active up synced filled
      [.createStore active.1.next, .createIndex active.1.next]
    · simp [Write.base]
    · simp
    · simp [Dir.apply, store]
    · simp [Dir.apply, index]
  · cases safe _ rfl
  · right
    rw [List.take_of_length_le (by simp)]
    exact whole

end Rotating

end Synced

end RaftLog.SegmentLog
