import RaftLog.SegmentLog.Operations

set_option autoImplicit false

namespace RaftLog.SegmentLog

open Lib

variable (cfg : Config) (terms : Terms) (dir : Dir) (log : Log) (before : List (Extent × Segment))
  (active : Extent × Segment) (up : Up cfg terms dir log before active)

-- The records of the log by offset, each with its position in its store.
def recordsOf (before : List (Extent × Segment)) (active : Extent × Segment) : List (Nat × Bytes) :=
  contents Extent.records (extentsOf before active)

theorem extents_chained (start : Nat) (extents : Extents start (before.map Prod.fst) active.1) :
    Chained Extent.base Extent.records start (extentsOf before active) := by
  rw [extents_of_snoc]
  exact extents.chained

include up

theorem in_range_iff (pair : Extent × Segment) (member : pair ∈ before ++ [active]) (off : Nat) :
    pair.2.isInRange off = true ↔ pair.1.base ≤ off ∧ off < pair.1.next := by
  have loaded := up.loaded pair member
  simp only [Segment.isInRange, Bool.and_eq_true, decide_eq_true_eq, loaded.base, loaded.next]

-- The segment that the loop of Log::read stops at.
theorem read_stops (off : Nat) (segment : Segment)
    (found : log.segments[log.segments.findIdx (·.isInRange off)]? = some segment) :
    ∃ pair, (before ++ [active])[log.segments.findIdx (·.isInRange off)]? = some pair ∧ pair.2 = segment ∧
      pair.1.base ≤ off ∧ off < pair.1.next := by
  obtain ⟨bound, here⟩ := List.getElem?_eq_some_iff.mp found
  have inRange : segment.isInRange off = true := here ▸ List.findIdx_getElem (w := bound)
  have paired : ((before ++ [active]).map Prod.snd)[log.segments.findIdx (·.isInRange off)]? = some segment := by
    rw [← up.segments]
    exact found
  rw [List.getElem?_map, Option.map_eq_some_iff] at paired
  obtain ⟨pair, at_, rfl⟩ := paired
  exact ⟨pair, at_, rfl, (in_range_iff cfg terms dir log before active up pair (List.mem_of_getElem? at_) off).mp inRange⟩

theorem read_found (number : Nat) (below : number < (recordsOf before active).length) :
    ∃ segment, log.segments[log.segments.findIdx (·.isInRange (cfg.initalOffset + number))]? = some segment := by
  obtain ⟨extent, member, least, most⟩ := chained_cover Extent.base Extent.records cfg.initalOffset _
    (extents_chained before active _ up.extents) (cfg.initalOffset + number) (Nat.le_add_right _ _)
    (Nat.add_lt_add_left below _)
  obtain ⟨pair, loadedHere, rfl⟩ := List.mem_map.mp member
  have bound : log.segments.findIdx (·.isInRange (cfg.initalOffset + number)) < log.segments.length := by
    apply List.findIdx_lt_length_of_exists
    refine ⟨pair.2, ?_, (in_range_iff cfg terms dir log before active up pair loadedHere _).mpr ⟨least, most⟩⟩
    rw [up.segments]
    exact List.mem_map_of_mem loadedHere
  exact ⟨_, List.getElem?_eq_getElem bound⟩

theorem log_read_outside (off : Nat) (buf : Bytes)
    (outside : off < cfg.initalOffset ∨ cfg.initalOffset + (recordsOf before active).length ≤ off) :
    log.read dir off buf = (log, [], buf, .error (.io .unexpectedEof "offset out of range")) := by
  cases found : log.segments[log.segments.findIdx (·.isInRange off)]? with
  | none => rw [Log.read, found]
  | some segment =>
      obtain ⟨pair, at_, _, least, most⟩ := read_stops cfg terms dir log before active up off segment found
      have within := chained_within Extent.base Extent.records cfg.initalOffset _
        (extents_chained before active _ up.extents) pair.1 (List.mem_map_of_mem (List.mem_of_getElem? at_))
      rw [Extent.next] at most
      rw [recordsOf] at outside
      omega

-- A record reads back, or a crash has taken it from a segment that was not the last.
theorem log_reads (narrow : terms.limit ≤ 2 ^ 32) (number position : Nat) (record buf : Bytes)
    (found : (recordsOf before active)[number]? = some (position, record)) :
    (log.read dir (cfg.initalOffset + number) buf).2.2 = (record, .ok ()) ∨
      (∃ kind message, (log.read dir (cfg.initalOffset + number) buf).2.2.2 = .error (.io kind message)) ∧
        terms.whole = false := by
  obtain ⟨segment, stops⟩ := read_found cfg terms dir log before active up number (List.getElem?_eq_some_iff.mp found).1
  obtain ⟨pair, at_, rfl, least, most⟩ := read_stops cfg terms dir log before active up _ segment stops
  have member := List.mem_of_getElem? at_
  have loaded := up.loaded pair member
  obtain ⟨inner, offset⟩ := Nat.exists_eq_add_of_le least
  have entry := chained_get Extent.base Extent.records cfg.initalOffset _ (extents_chained before active _ up.extents) pair.1
    (List.mem_map_of_mem member) inner (by rw [Extent.next] at most; omega)
  rw [← offset, Nat.add_sub_cancel_left] at entry
  have read : (log.read dir (cfg.initalOffset + number) buf).2.2 = (pair.2.read dir (pair.1.base + inner) buf).2.2 := by
    rw [Log.read, stops, offset]
  rw [read]
  have bound : inner < pair.1.records.length := by
    rw [Extent.next] at most
    omega
  have slot := slot_of_few cfg terms dir pair.1 pair.2 loaded inner bound narrow
  rcases segment_reads cfg terms dir pair.1 pair.2 loaded inner bound position record buf (slot.symm ▸ entry.symm.trans found)
    with whole | ⟨failed, lost⟩
  · exact .inl whole
  · refine .inr ⟨failed, ?_⟩
    by_contra kept
    exact lost (loaded.held.kept (by simpa using kept))

theorem bases_apart (first second : Nat) (pair other : Extent × Segment) (here : (before ++ [active])[first]? = some pair)
    (there : (before ++ [active])[second]? = some other) (apart : first ≠ second) : other.1.base ≠ pair.1.base := by
  have ascending := extents_ascending _ _ _ up.extents
  rw [← extents_of_snoc, extentsOf] at ascending
  intro same
  have left : (((before ++ [active]).map Prod.fst).map Extent.base)[first]? = some pair.1.base := by
    rw [List.getElem?_map, List.getElem?_map, here]
    rfl
  have right : (((before ++ [active]).map Prod.fst).map Extent.base)[second]? = some pair.1.base := by
    rw [List.getElem?_map, List.getElem?_map, there, ← same]
    rfl
  have bound := (List.getElem?_eq_some_iff.mp left).1
  exact apart ((List.getElem?_inj bound (ascending.imp Nat.ne_of_lt)).mp (left.trans right.symm))

omit up in
theorem pair_bases : (before ++ [active]).map (fun pair => pair.1.base) = (extentsOf before active).map Extent.base := by
  rw [extentsOf, List.map_map]
  rfl

-- Flushing one segment's buffer changes nothing that the log holds.
theorem up_flushed (cur : Nat) (pair : Extent × Segment) (here : (before ++ [active])[cur]? = some pair) :
    ∃ later last, Up cfg terms (dir.applyAll pair.2.flushWrites) { log with segments := log.segments.set cur pair.2.flush }
      later last ∧ extentsOf later last = extentsOf before active := by
  have loaded := up.loaded pair (List.mem_of_getElem? here)
  have nonempty : (before ++ [active]).set cur (pair.1, pair.2.flush) ≠ [] := by simp
  obtain ⟨later, last, set⟩ : ∃ later last, (before ++ [active]).set cur (pair.1, pair.2.flush) = later ++ [last] :=
    ⟨_, _, (List.dropLast_append_getLast nonempty).symm⟩
  have same : extentsOf later last = extentsOf before active := by
    rw [extentsOf, ← set, List.map_set, extentsOf]
    apply List.ext_getElem?
    intro number
    rw [List.getElem?_set]
    split
    · rename_i at_
      subst at_
      have bound := (List.getElem?_eq_some_iff.mp here).1
      rw [if_pos (by rw [List.length_map]; exact bound), List.getElem?_map, here]
      rfl
    · rfl
  refine ⟨later, last, ?_, same⟩
  have parts := same
  rw [extents_of_snoc, extents_of_snoc] at parts
  obtain ⟨sameBefore, sameActive⟩ := List.append_inj' parts rfl
  have sameActive : last.1 = active.1 := List.singleton_inj.mp sameActive
  have own : ∀ write ∈ pair.2.flushWrites, write.base = pair.1.base := by
    intro write member
    rw [flush_writes_base pair.2 write member, loaded.base]
  constructor
  case extents =>
    rw [sameBefore, sameActive]
    exact up.extents
  case loaded =>
    rw [← set]
    intro other member
    obtain ⟨number, found⟩ := List.getElem?_of_mem member
    rw [List.getElem?_set] at found
    split at found
    · split at found
      · cases found
        exact flush_loaded cfg terms dir pair.1 pair.2 loaded
      · cases found
    · rename_i apart
      have untouched : ∀ write ∈ pair.2.flushWrites, other.1.base ≠ write.base := by
        intro write written
        rw [own write written]
        exact bases_apart cfg terms dir log before active up cur number pair other here found apart
      apply loaded_same cfg terms dir
      · exact apply_all_store_other _ _ dir untouched
      · exact apply_all_index_other _ _ dir untouched
      · exact up.loaded other (List.mem_of_getElem? found)
  case listed =>
    intro base
    have there : (∃ write ∈ pair.2.flushWrites, base = write.base) → dir.has base := by
      rintro ⟨write, written, rfl⟩
      rw [own write written, up.listed]
      exact List.mem_map_of_mem (List.mem_of_getElem? here)
    rw [apply_all_has, or_iff_left_of_imp there, up.listed, pair_bases, pair_bases, same]
  case segments =>
    rw [← set, List.map_set, ← up.segments]
  case activeIndex =>
    have length := congrArg List.length sameBefore
    rw [List.length_map, List.length_map] at length
    rw [length]
    exact up.activeIndex

-- Reading flushes the segment that it reads.
theorem log_read_up (off : Nat) (buf : Bytes) :
    ∃ later last, Up cfg terms (dir.applyAll (log.read dir off buf).2.1) (log.read dir off buf).1 later last ∧
      extentsOf later last = extentsOf before active := by
  cases found : log.segments[log.segments.findIdx (·.isInRange off)]? with
  | none => exact ⟨before, active, by rw [Log.read, found]; exact up, rfl⟩
  | some segment =>
      obtain ⟨pair, here, rfl, least, most⟩ := read_stops cfg terms dir log before active up off segment found
      have member := List.mem_of_getElem? here
      have loaded := up.loaded pair member
      obtain ⟨inner, rfl⟩ := Nat.exists_eq_add_of_le least
      rw [Extent.next] at most
      have bound : inner < pair.1.records.length := by omega
      have entry := List.getElem?_eq_getElem ((Nat.mod_le inner (2 ^ 32)).trans_lt bound)
      have read : log.read dir (pair.1.base + inner) buf =
          ({ log with segments := log.segments.set (log.segments.findIdx (·.isInRange (pair.1.base + inner))) pair.2.flush },
            pair.2.flushWrites, fetch (dir.store pair.1.base ++ pair.2.store.buffer) pair.1.records[inner % 2 ^ 32].1 buf) := by
        rw [Log.read, found]
        simp only [segment_read_in_range cfg terms dir pair.1 pair.2 loaded inner bound _ _ buf entry]
        rfl
      rw [read]
      exact up_flushed cfg terms dir log before active up _ pair here

omit up in
-- A log of one segment goes by the numbers of its slots, also where these start again.
theorem sole_read (sole : Up cfg terms dir log [] active) (number position : Nat) (record buf : Bytes)
    (bound : number < active.1.records.length) (found : active.1.records[number % 2 ^ 32]? = some (position, record)) :
    (log.read dir (cfg.initalOffset + number) buf).2.2 = (record, .ok ()) ∧
      Up cfg terms (dir.applyAll (log.read dir (cfg.initalOffset + number) buf).2.1)
        (log.read dir (cfg.initalOffset + number) buf).1 [] (active.1, active.2.flush) := by
  have loaded := up_active_loaded cfg terms dir log [] active sole
  have base : active.1.base = cfg.initalOffset :=
    ((chained_last Extent.base Extent.records cfg.initalOffset [] active.1).mp sole.extents.chained).2
  have inRange : active.2.isInRange (cfg.initalOffset + number) = true := by
    apply (in_range_iff cfg terms dir log [] active sole active (by simp) _).mpr
    rw [Extent.next, base]
    omega
  have segments : log.segments = [active.2] := sole.segments
  have cur : log.segments.findIdx (·.isInRange (cfg.initalOffset + number)) = log.activeIndex := by
    rw [segments, List.findIdx_cons, inRange, sole.activeIndex]
    rfl
  have slot := segment_read_in_range cfg terms dir active.1 active.2 loaded number bound position record buf found
  have read : log.read dir (cfg.initalOffset + number) buf =
      ({ log with segments := log.segments.set log.activeIndex active.2.flush }, active.2.flushWrites,
        fetch (dir.store active.1.base ++ active.2.store.buffer) position buf) := by
    rw [base] at slot
    rw [Log.read, cur, up_active cfg terms dir log [] active sole]
    simp only [slot, base]
  have whole := segment_reads cfg terms dir active.1 active.2 loaded number bound position record buf found
  rw [slot] at whole
  rw [read]
  refine ⟨whole.resolve_right fun torn => torn.2 sole.extents.whole, ?_⟩
  apply up_after cfg terms dir log [] active sole active.2.flushWrites ?_ (active.1, active.2.flush)
    (flush_loaded cfg terms dir active.1 active.2 loaded) rfl sole.extents.whole
  intro write member
  rw [flush_writes_base active.2 write member, loaded.base]

end RaftLog.SegmentLog
