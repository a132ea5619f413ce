import RaftLog.SegmentLog.Faults
import RaftLog.SegmentLog.Trimming

set_option autoImplicit false

namespace RaftLog.Faults

open Lib SegmentLog Trimming

-- With no call failing a step is one of the log as it was.
theorem failure_free_step (cfg : Config) (site next : Site) (action : Trimming.Action)
    (moves : Trimming.step cfg site action = some next) : ∃ same, step cfg site same = some next := by
  cases action with
  | append record =>
      refine ⟨.append record noFaults, ?_⟩
      simp only [Trimming.step] at moves
      split at moves
      case isFalse => cases moves
      simp only [step, log_append_with_none]
      split at moves
      · rename_i appended
        rw [appended]
        exact moves
      · rename_i appended
        rw [appended]
        exact moves
      · cases moves
  | read off buf =>
      refine ⟨.read off buf none, ?_⟩
      simp only [Trimming.step] at moves
      simp only [step, log_read_with_none]
      split at moves
      · cases moves
      · rename_i log writes kept result served read
        rw [read]
        cases result with
        | ok => exact moves
        | error failure =>
            cases failure with
            | io kind message => exact moves
            | panic message => exact absurd rfl (served _)
  | truncate off =>
      refine ⟨.truncate off fun _ => none, ?_⟩
      simp only [step, truncate_with_none]
      exact moves

theorem failure_free_reachable (cfg : Config) (site : Site) (run : Reachable (Trimming.machine cfg) site) :
    Reachable (machine cfg) site := by
  induction run with
  | start site starts => exact .start site ⟨emptyDir, starts⟩
  | step site next action _ _ moves ih =>
      obtain ⟨same, moved⟩ := failure_free_step cfg site next action moves
      exact .step site next same ih trivial moved

def Addressable (log : Log) : Prop := log.activeIndex + 1 = log.segments.length

-- The loop returns with the segment popped and the active index where it was.
theorem pop_segments_fails (off : Nat) (faults : Nat → Option RemoveFault) (segments : List Segment) (activeIndex : Nat)
    (most : segments.length ≤ activeIndex + 1) (failed : Failed)
    (fails : (popSegmentsWith off faults activeIndex segments).2.2 = .error failed) :
    (popSegmentsWith off faults activeIndex segments).1.2.length ≤ (popSegmentsWith off faults activeIndex segments).1.1 := by
  induction segments generalizing activeIndex with
  | nil => cases fails
  | cons segment rest ih =>
      rw [List.length_cons] at most
      rw [popSegmentsWith] at fails ⊢
      split
      case isFalse lesser =>
        rw [if_neg lesser] at fails
        cases fails
      rename_i lesser
      rw [if_pos lesser] at fails
      split
      · exact Nat.le_of_succ_le_succ most
      · rename_i ops removed
        rw [removed] at fails
        exact ih (activeIndex - 1) (by omega) fails

theorem truncate_fails (log : Log) (sound : Sound log) (off : Nat) (faults : Nat → Option RemoveFault) (failed : Failed)
    (fails : (log.truncateWith off faults).2.2 = .error failed) :
    (log.truncateWith off faults).1.segments.length ≤ (log.truncateWith off faults).1.activeIndex := by
  have past := pop_segments_fails off faults log.segments.reverse log.activeIndex
    (by rw [List.length_reverse]; exact sound.active) failed fails
  simpa [Log.truncateWith] using past

section Past

variable (cfg : Config) (dir : Dir) (log : Log) (past : log.segments.length ≤ log.activeIndex)

include past

theorem past_next_offset : log.nextOffset = .error (.panic "index out of bounds") := by
  rw [Log.nextOffset, List.getElem?_eq_none past]

theorem past_append (record : Bytes) : log.append cfg dir record = (log, [], .error (.panic "index out of bounds")) := by
  rw [Log.append, List.getElem?_eq_none past]

theorem past_close : log.close.2.2 = .error (.panic "index out of bounds") := if_neg (Nat.not_lt.mpr past)

end Past

theorem failed_truncation_unaddressable (cfg : Config) (site : Site) (run : Reachable (machine cfg) site) (off : Nat)
    (faults : Nat → Option RemoveFault) (failed : Failed) (fails : (site.log.truncateWith off faults).2.2 = .error failed) :
    ¬ Addressable (site.log.truncateWith off faults).1 := by
  have past := truncate_fails site.log (sound_run cfg site run) off faults failed fails
  rw [Addressable]
  omega

-- Every record has a segment of its own, and the store of the second one cannot be removed.
def oneSlot : Config := ⟨0, false, entireWidth, 1024⟩

def twoAppends : List Action := [.append [1] noFaults, .append [2] noFaults]

def twoRecords : Site := (exec (machine oneSlot) (Site.fresh oneSlot) twoAppends).getD (Site.fresh oneSlot)

def secondStays (place : Nat) : Option RemoveFault := if place = 1 then some ⟨.removeStore, 0⟩ else none

theorem two_records_reached : Reachable (machine oneSlot) twoRecords :=
  exec_reaches (machine oneSlot) twoAppends (Site.fresh oneSlot) (Site.fresh oneSlot)
    (.start _ ⟨emptyDir, by decide +kernel, rfl⟩) (by decide +kernel)

theorem second_removal_unaddressable : ¬ Addressable (twoRecords.log.truncateWith 0 secondStays).1 :=
  failed_truncation_unaddressable oneSlot twoRecords two_records_reached 0 secondStays .os (by decide +kernel)

theorem active_index_left_behind : ¬ ∀ (cfg : Config) (site : Site), Reachable (machine cfg) site → 1 < site.log.segments.length →
    ∀ off, (∀ first, site.log.segments.head? = some first → first.baseOffset ≤ off) → ∀ faults failed,
      (site.log.truncateWith off faults).2.2 = .error failed → Addressable (site.log.truncateWith off faults).1 := by
  intro always
  have kept := always oneSlot twoRecords two_records_reached (by decide +kernel) 0 (by decide +kernel) secondStays .os
    (by decide +kernel)
  have left : (twoRecords.log.truncateWith 0 secondStays).1.activeIndex = 1 ∧
      (twoRecords.log.truncateWith 0 secondStays).1.segments.length = 1 := by decide +kernel
  rw [Addressable, left.1, left.2] at kept
  cases kept

section Write

variable (flushFault : Option Nat) (writeFault : Bool) (buffer bytes : Bytes)

-- The flush that makes room in the writer fails.
def flushFails : Bool :=
  decide (bytes.length > bufferCapacity - buffer.length) && flushFault.any fun out => decide (out < buffer.length)

def writeFails : Bool := flushFails flushFault buffer bytes || decide (bytes.length ≥ bufferCapacity) && writeFault

theorem flush_buf_fails (out : Nat) (short : out < buffer.length) :
    flushBuf (some out) buffer = (buffer.drop out, flushed (buffer.take out), .error .os) := if_pos short

theorem flush_buf_works (works : flushFault.any (fun out => decide (out < buffer.length)) = false) :
    flushBuf flushFault buffer = ([], flushed buffer, .ok ()) := by
  cases flushFault with
  | none => rfl
  | some out => exact if_neg (of_decide_eq_false works)

-- The bytes go to the file themselves.
theorem direct_write_fails (direct : bytes.length ≥ bufferCapacity) (room : flushFails flushFault buffer bytes = false) :
    ∃ kept out, bufferWriteWith flushFault true buffer bytes = (kept, out, .error .os) ∧ out.flatten ++ kept = buffer := by
  by_cases overflows : bytes.length > bufferCapacity - buffer.length
  · rw [flushFails, decide_eq_true overflows, Bool.true_and] at room
    refine ⟨[], flushed buffer, ?_, by rw [flushed_flatten, List.append_nil]⟩
    simp only [bufferWriteWith, if_pos overflows, flush_buf_works flushFault buffer room, if_pos direct, if_true]
  · refine ⟨buffer, [], ?_, rfl⟩
    simp only [bufferWriteWith, if_neg overflows, if_pos direct, if_true]

-- A write that fails leaves what was in the writer, there or in the file.
theorem buffer_write_fails (fails : writeFails flushFault writeFault buffer bytes = true) :
    ∃ kept out, bufferWriteWith flushFault writeFault buffer bytes = (kept, out, .error .os) ∧ out.flatten ++ kept = buffer := by
  cases flushing : flushFails flushFault buffer bytes with
  | false =>
      rw [writeFails, flushing, Bool.false_or, Bool.and_eq_true, decide_eq_true_eq] at fails
      obtain ⟨direct, rfl⟩ := fails
      exact direct_write_fails flushFault buffer bytes direct flushing
  | true =>
      rw [flushFails, Bool.and_eq_true, decide_eq_true_eq] at flushing
      obtain ⟨overflows, struck⟩ := flushing
      cases flushFault with
      | none => cases struck
      | some out =>
          refine ⟨buffer.drop out, flushed (buffer.take out), ?_, by rw [flushed_flatten, List.take_append_drop]⟩
          simp only [bufferWriteWith, if_pos overflows, flush_buf_fails buffer out (of_decide_eq_true struck)]

theorem buffer_write_works (works : writeFails flushFault writeFault buffer bytes = false) :
    bufferWriteWith flushFault writeFault buffer bytes =
      ((bufferWrite buffer bytes).1, (bufferWrite buffer bytes).2, .ok ()) := by
  obtain ⟨room, whole⟩ := Bool.or_eq_false_iff.mp works
  have taken : ∀ kept out, (if bytes.length ≥ bufferCapacity then
      if writeFault then (kept, out, .error .os) else (kept, out ++ [bytes], .ok ())
      else (kept ++ bytes, out, .ok ()) : Bytes × List Bytes × Except Failed Unit) =
        ((if bytes.length ≥ bufferCapacity then (kept, out ++ [bytes]) else (kept ++ bytes, out)).1,
          (if bytes.length ≥ bufferCapacity then (kept, out ++ [bytes]) else (kept ++ bytes, out)).2, .ok ()) := by
    intro kept out
    split
    · rename_i direct
      rw [decide_eq_true direct, Bool.true_and] at whole
      rw [whole]
      rfl
    · rfl
  by_cases overflows : bytes.length > bufferCapacity - buffer.length
  · rw [flushFails, decide_eq_true overflows, Bool.true_and] at room
    simp only [bufferWriteWith, bufferWrite, if_pos overflows, flush_buf_works flushFault buffer room]
    exact taken _ _
  · simp only [bufferWriteWith, bufferWrite, if_neg overflows]
    exact taken _ _

end Write

def lengthBytes (record : Bytes) : Bytes := toBytes lengthWidth record.length

def lengthFails (active : Segment) (record : Bytes) (faults : AppendFaults) : Bool :=
  writeFails faults.lengthFlush false active.store.buffer (lengthBytes record)

-- The length of the record is in the writer already.
def recordFails (active : Segment) (record : Bytes) (faults : AppendFaults) : Bool :=
  writeFails faults.recordFlush faults.recordWrite (bufferWrite active.store.buffer (lengthBytes record)).1 record

def buffered (segment : Segment) (buffer : Bytes) : Segment := { segment with store := ⟨segment.store.size, buffer⟩ }

-- How far an append gets: nothing of the record is written, its length is, or the store has counted it.
inductive Reaches (log : Log) (active : Segment) (record : Bytes) (faults : AppendFaults) :
    Log × List Write × Except Failed Nat → Prop where
  | nothing (kept : Bytes) (out : List Bytes) (fails : lengthFails active record faults = true)
      (stream : out.flatten ++ kept = active.store.buffer) :
      Reaches log active record faults (log.put (buffered active kept), storeWrites active.baseOffset out, .error .os)
  | length (kept : Bytes) (out : List Bytes) (passes : lengthFails active record faults = false)
      (fails : recordFails active record faults = true) (stream : out.flatten ++ kept = active.store.buffer ++ lengthBytes record) :
      Reaches log active record faults (log.put (buffered active kept), storeWrites active.baseOffset out, .error .os)
  | counted (next : Log) (writes : List Write) (result : Except Failed Nat) (passes : lengthFails active record faults = false)
      (written : recordFails active record faults = false) (segment : Segment)
      (there : next.segments[log.activeIndex]? = some segment)
      (grown : segment.store.size = active.store.size + (record.length + lengthWidth)) :
      Reaches log active record faults (next, writes, result)

section Append

variable (cfg : Config) (log : Log) (dir : Dir) (active : Segment) (record : Bytes) (faults : AppendFaults)

theorem length_fails_append (fails : lengthFails active record faults = true) :
    ∃ kept out, active.appendWith cfg record faults =
      (buffered active kept, storeWrites active.baseOffset out, .error .os) ∧ out.flatten ++ kept = active.store.buffer := by
  obtain ⟨kept, out, failed, stream⟩ := buffer_write_fails faults.lengthFlush false active.store.buffer (lengthBytes record) fails
  refine ⟨kept, out, ?_, stream⟩
  rw [lengthBytes] at failed
  simp only [Segment.appendWith, Store.appendWith, failed]
  rfl

variable (passes : lengthFails active record faults = false)

include passes

theorem record_fails_append (fails : recordFails active record faults = true) :
    ∃ kept out, active.appendWith cfg record faults =
      (buffered active kept, storeWrites active.baseOffset out, .error .os) ∧
      out.flatten ++ kept = active.store.buffer ++ lengthBytes record := by
  have first := buffer_write_works faults.lengthFlush false active.store.buffer (lengthBytes record) passes
  obtain ⟨kept, out, failed, stream⟩ := buffer_write_fails faults.recordFlush faults.recordWrite _ record fails
  refine ⟨kept, (bufferWrite active.store.buffer (lengthBytes record)).2 ++ out, ?_, ?_⟩
  · rw [lengthBytes] at first failed
    simp only [Segment.appendWith, Store.appendWith, first, failed]
    rfl
  · rw [List.flatten_append, List.append_assoc, stream]
    exact buffer_write_stream active.store.buffer (lengthBytes record)

theorem store_append_counts (works : recordFails active record faults = false) :
    (active.store.appendWith cfg.syncWrites record faults).1.size = active.store.size + (record.length + lengthWidth) := by
  have first := buffer_write_works faults.lengthFlush false active.store.buffer (lengthBytes record) passes
  have second := buffer_write_works faults.recordFlush faults.recordWrite _ record works
  rw [lengthBytes] at first second
  simp only [Store.appendWith, first, second]
  split
  · split
    · rfl
    · rfl
  · rfl

theorem segment_append_counts (works : recordFails active record faults = false) :
    (active.appendWith cfg record faults).1.store.size = active.store.size + (record.length + lengthWidth) := by
  have counts := store_append_counts cfg active record faults passes works
  unfold Segment.appendWith
  dsimp only
  split
  · rename_i appended
    rwa [appended] at counts
  · rename_i appended
    rw [appended] at counts
    split
    · exact counts
    · split
      · exact counts
      · exact counts

omit passes

theorem append_reaches (here : log.segments[log.activeIndex]? = some active) :
    Reaches log active record faults (log.appendWith cfg dir record faults) := by
  have bound := (List.getElem?_eq_some_iff.mp here).1
  cases early : lengthFails active record faults with
  | true =>
      obtain ⟨kept, out, failed, stream⟩ := length_fails_append cfg active record faults early
      simp only [Log.appendWith, here, failed]
      exact .nothing kept out early stream
  | false =>
      cases late : recordFails active record faults with
      | true =>
          obtain ⟨kept, out, failed, stream⟩ := record_fails_append cfg active record faults early late
          simp only [Log.appendWith, here, failed]
          exact .length kept out early late stream
      | false =>
          have counts := segment_append_counts cfg active record faults early late
          have stays : ∀ segment, (log.segments.set log.activeIndex segment)[log.activeIndex]? = some segment :=
            fun segment => List.getElem?_set_self bound
          simp only [Log.appendWith, here]
          cases appended : active.appendWith cfg record faults with
          | mk after outcome =>
              obtain ⟨writes, result⟩ := outcome
              rw [appended] at counts
              cases result with
              | error failed => exact .counted _ _ _ early late after (stays after) counts
              | ok off =>
                  dsimp only
                  split
                  case isFalse => exact .counted _ _ _ early late after (stays after) counts
                  split
                  · exact .counted _ _ _ early late after (stays after) counts
                  · refine .counted _ _ _ early late after ?_ counts
                    rw [List.getElem?_append_left (by rw [List.length_set]; exact bound)]
                    exact stays after

end Append

-- What a failed append may not change.
structure Unchanged (dir : Dir) (log : Log) (after : Dir) (next : Log) : Prop where
  nextOffset : next.nextOffset = log.nextOffset
  sizes : next.segments.map (fun segment => (segment.store.size, segment.index.size)) =
    log.segments.map fun segment => (segment.store.size, segment.index.size)
  reads : ∀ off buf record, (next.read after off buf).2.2 = (record, .ok ()) ↔ (log.read dir off buf).2.2 = (record, .ok ())

section Fetch

variable (file more : Bytes) (position : Nat) (buf record : Bytes)

theorem read_exact_longer (read : readExactAt file position buf = (record, .ok ())) :
    readExactAt (file ++ more) position buf = (record, .ok ()) := by
  by_cases within : position + buf.length ≤ file.length
  · have longer : position + buf.length ≤ (file ++ more).length := by
      rw [List.length_append]
      exact within.trans (Nat.le_add_right _ _)
    rw [read_exact_within file position buf within] at read
    rw [read_exact_within (file ++ more) position buf longer, slice_append file more position buf.length within]
    exact read
  · have empty : buf = [] := by
      by_contra some
      rw [readExactAt] at read
      have refused := read_exact_beyond file position buf (Nat.lt_of_not_le within) some
      rw [readExactAt] at refused
      cases (Prod.mk.inj read).2.symm.trans refused
    subst empty
    cases read
    rfl

-- A record that the file has whole is read the same when bytes follow.
theorem fetch_longer (read : fetch file position buf = (record, .ok ())) : fetch (file ++ more) position buf = (record, .ok ()) := by
  rw [fetch] at read
  split at read
  · cases read
  · rename_i size header
    rw [fetch, read_exact_longer file more position _ size header]
    dsimp only
    split at read
    · cases read
    · rename_i small
      rw [if_neg small]
      cases sum : checkedAdd u64Max position lengthWidth with
      | error failure =>
          rw [sum] at read
          cases read
      | ok start =>
          rw [sum] at read
          exact read_exact_longer file more start _ record read

end Fetch

section Reads

variable (dir : Dir) (off : Nat) (buf : Bytes)

theorem segment_read_result (segment : Segment) : (segment.read dir off buf).2.2 =
    if off < segment.baseOffset ∨ off ≥ segment.nextOffset then (buf, .error (.io .invalidInput "offset out of range"))
    else match segment.index.read (dir.index segment.baseOffset) (segment.relative off) with
      | .error failure => (buf, .error failure)
      | .ok slot => fetch (dir.store segment.baseOffset ++ segment.store.buffer) slot.2 buf := by
  rw [Segment.read]
  split
  · rfl
  · cases segment.index.read (dir.index segment.baseOffset) (segment.relative off) with
    | error failure => rfl
    | ok slot =>
        dsimp only
        rw [store_writes_store, Store.flush, flushed_flatten]

-- The stream of a segment is its file and its writer, wherever the bytes are.
theorem segment_read_stream (active : Segment) (kept : Bytes) (out : List Bytes) :
    ((buffered active kept).read (dir.applyAll (storeWrites active.baseOffset out)) off buf).2.2 =
      ((buffered active (out.flatten ++ kept)).read dir off buf).2.2 := by
  rw [segment_read_result, segment_read_result, store_writes_index]
  simp only [buffered, store_writes_store, List.append_assoc]
  rfl

theorem segment_read_longer (active : Segment) (more record : Bytes) (read : (active.read dir off buf).2.2 = (record, .ok ())) :
    ((buffered active (active.store.buffer ++ more)).read dir off buf).2.2 = (record, .ok ()) := by
  rw [segment_read_result] at read ⊢
  by_cases outside : off < active.baseOffset ∨ off ≥ active.nextOffset
  · rw [if_pos outside] at read
    cases read
  rw [if_neg outside] at read
  refine (if_neg outside).trans ?_
  cases found : active.index.read (dir.index active.baseOffset) (active.relative off) with
  | error failure =>
      rw [found] at read
      cases read
  | ok slot =>
      rw [found] at read
      have slots : (buffered active (active.store.buffer ++ more)).index.read
        (dir.index (buffered active (active.store.buffer ++ more)).baseOffset)
        ((buffered active (active.store.buffer ++ more)).relative off) = .ok slot := found
      have longer := fetch_longer _ more slot.2 buf record read
      rw [List.append_assoc] at longer
      rw [slots]
      exact longer

end Reads

section Put

variable (dir : Dir) (log : Log) (active : Segment) (here : log.segments[log.activeIndex]? = some active) (off : Nat) (buf : Bytes)

include here

theorem put_self : log.put active = log := by
  obtain ⟨bound, rfl⟩ := List.getElem?_eq_some_iff.mp here
  rw [Log.put, List.set_getElem_self]

theorem put_find (buffer : Bytes) : (log.put (buffered active buffer)).segments.find? (·.isInRange off) =
    if log.segments.findIdx (·.isInRange off) = log.activeIndex then some (buffered active buffer)
    else log.segments.find? (·.isInRange off) := by
  have bound := (List.getElem?_eq_some_iff.mp here).1
  rw [List.find?_eq_getElem?_findIdx, List.find?_eq_getElem?_findIdx, Log.put,
    find_set log.segments log.activeIndex active (buffered active buffer) here (·.isInRange off) rfl]
  split
  · rename_i place
    rw [place, List.getElem?_set_self bound]
  · rename_i place
    rw [List.getElem?_set_ne (Ne.symm place)]

theorem other_base (sound : Sound log) (segment : Segment) (place : log.segments.findIdx (·.isInRange off) ≠ log.activeIndex)
    (found : log.segments.find? (·.isInRange off) = some segment) : segment.baseOffset ≠ active.baseOffset := by
  rw [List.find?_eq_getElem?_findIdx] at found
  obtain ⟨within, rfl⟩ := List.getElem?_eq_some_iff.mp found
  obtain ⟨bound, rfl⟩ := List.getElem?_eq_some_iff.mp here
  have ordered := List.pairwise_iff_getElem.mp sound.ordered
  have both : log.segments.findIdx (·.isInRange off) < (log.segments.map Segment.baseOffset).length ∧
      log.activeIndex < (log.segments.map Segment.baseOffset).length := by
    rw [List.length_map]
    exact ⟨within, bound⟩
  rcases Nat.lt_or_gt_of_ne place with below | above
  · have less := ordered _ _ both.1 both.2 below
    rw [List.getElem_map, List.getElem_map] at less
    exact less.ne
  · have less := ordered _ _ both.2 both.1 above
    rw [List.getElem_map, List.getElem_map] at less
    exact less.ne'

-- What has gone to the active segment's file might as well be in its writer.
theorem put_read (sound : Sound log) (kept : Bytes) (out : List Bytes) :
    ((log.put (buffered active kept)).read (dir.applyAll (storeWrites active.baseOffset out)) off buf).2.2 =
      ((log.put (buffered active (out.flatten ++ kept))).read dir off buf).2.2 := by
  rw [log_read_find, log_read_find, put_find log active here off, put_find log active here off]
  by_cases place : log.segments.findIdx (·.isInRange off) = log.activeIndex
  · rw [if_pos place, if_pos place]
    exact segment_read_stream dir off buf active kept out
  rw [if_neg place, if_neg place]
  cases found : log.segments.find? (·.isInRange off) with
  | none => rfl
  | some segment =>
      have apart := other_base log active here off sound segment place found
      have untouched : ∀ write ∈ storeWrites active.baseOffset out, segment.baseOffset ≠ write.base := by
        intro write member
        rw [store_writes_base active.baseOffset out write member]
        exact apart
      have same := segment_read_same dir (dir.applyAll (storeWrites active.baseOffset out)) off buf segment
        (apply_all_store_other _ _ dir untouched) (store_writes_index dir active.baseOffset segment.baseOffset out)
      dsimp only
      rw [same]

theorem put_read_longer (more record : Bytes) (read : (log.read dir off buf).2.2 = (record, .ok ())) :
    ((log.put (buffered active (active.store.buffer ++ more))).read dir off buf).2.2 = (record, .ok ()) := by
  rw [log_read_find] at read ⊢
  rw [put_find log active here off]
  by_cases place : log.segments.findIdx (·.isInRange off) = log.activeIndex
  · rw [if_pos place]
    rw [List.find?_eq_getElem?_findIdx, place, here] at read
    exact segment_read_longer dir off buf active more record read
  · rw [if_neg place]
    exact read

theorem put_sizes (buffer : Bytes) : (log.put (buffered active buffer)).segments.map (fun segment => (segment.store.size, segment.index.size)) =
    log.segments.map fun segment => (segment.store.size, segment.index.size) :=
  map_set log.segments log.activeIndex active (buffered active buffer) here _ rfl

theorem put_next_offset (buffer : Bytes) : (log.put (buffered active buffer)).nextOffset = log.nextOffset := by
  have bound := (List.getElem?_eq_some_iff.mp here).1
  rw [Log.nextOffset, Log.nextOffset, Log.put, List.getElem?_set_self bound, here]
  rfl

end Put

-- The eight bytes make up what the end of the log's last store lacked of a record.
def Completes (dir : Dir) (log : Log) (active : Segment) (record : Bytes) : Prop :=
  ∃ off buf found, ((log.put (buffered active (active.store.buffer ++ lengthBytes record))).read dir off buf).2.2 = (found, .ok ()) ∧
    (log.read dir off buf).2.2 ≠ (found, .ok ())

-- The append fails before the store has counted the record.
def FailsUncounted (dir : Dir) (log : Log) (record : Bytes) (faults : AppendFaults) : Prop :=
  ∃ active, log.active? = some active ∧ (lengthFails active record faults = true ∨
    recordFails active record faults = true ∧ ¬ Completes dir log active record)

theorem counted_changes (dir after : Dir) (log next : Log) (active segment : Segment) (record : Bytes)
    (here : log.segments[log.activeIndex]? = some active) (there : next.segments[log.activeIndex]? = some segment)
    (grown : segment.store.size = active.store.size + (record.length + lengthWidth)) : ¬ Unchanged dir log after next := by
  intro unchanged
  have sizes := congrArg (fun sizes => sizes[log.activeIndex]?) unchanged.sizes
  rw [List.getElem?_map, List.getElem?_map, here, there] at sizes
  have stored := (Prod.mk.inj (Option.some.inj sizes)).1
  unfold lengthWidth at grown
  omega

section Outcome

variable (dir : Dir) (log : Log) (sound : Sound log) (active : Segment) (here : log.segments[log.activeIndex]? = some active)

include sound here

-- Nothing but the writer of the active segment and its file has changed.
theorem put_unchanged_iff (kept : Bytes) (out : List Bytes) :
    Unchanged dir log (dir.applyAll (storeWrites active.baseOffset out)) (log.put (buffered active kept)) ↔
      ∀ off buf found, ((log.put (buffered active (out.flatten ++ kept))).read dir off buf).2.2 = (found, .ok ()) ↔
        (log.read dir off buf).2.2 = (found, .ok ()) := by
  constructor
  · intro unchanged off buf found
    rw [← put_read dir log active here off buf sound kept out]
    exact unchanged.reads off buf found
  · intro reads
    refine ⟨put_next_offset log active here kept, put_sizes log active here kept, fun off buf found => ?_⟩
    rw [put_read dir log active here off buf sound kept out]
    exact reads off buf found

theorem nothing_unchanged (kept : Bytes) (out : List Bytes) (stream : out.flatten ++ kept = active.store.buffer) :
    Unchanged dir log (dir.applyAll (storeWrites active.baseOffset out)) (log.put (buffered active kept)) := by
  have whole : buffered active active.store.buffer = active := rfl
  rw [put_unchanged_iff dir log sound active here, stream, whole, put_self log active here]
  exact fun off buf found => Iff.rfl

theorem length_unchanged_iff (kept : Bytes) (out : List Bytes) (record : Bytes)
    (stream : out.flatten ++ kept = active.store.buffer ++ lengthBytes record) :
    Unchanged dir log (dir.applyAll (storeWrites active.baseOffset out)) (log.put (buffered active kept)) ↔
      ¬ Completes dir log active record := by
  rw [put_unchanged_iff dir log sound active here, stream]
  constructor
  · rintro reads ⟨off, buf, found, read, unread⟩
    exact unread ((reads off buf found).mp read)
  · intro none off buf found
    refine ⟨fun read => ?_, put_read_longer dir log active here off buf (lengthBytes record) found⟩
    by_contra unread
    exact none ⟨off, buf, found, read, unread⟩

end Outcome

-- A log that has no record has none to complete.
theorem fresh_not_completed (cfg : Config) (record : Bytes) (active : Segment)
    (only : (Site.fresh cfg).log.segments[(Site.fresh cfg).log.activeIndex]? = some active) :
    ¬ Completes (Site.fresh cfg).dir (Site.fresh cfg).log active record := by
  rintro ⟨off, buf, found, read, _⟩
  cases only
  have none : ∀ buffer, ((Site.fresh cfg).log.put (buffered ⟨cfg.initalOffset, cfg.initalOffset, ⟨0, []⟩, ⟨0, cfg.maxSizeBytes⟩⟩
      buffer)).segments.find? (·.isInRange off) = none := by
    intro buffer
    rw [List.find?_eq_none]
    simp [Site.fresh, Log.put, buffered, Segment.isInRange]
  rw [log_read_find, none] at read
  cases read

-- A record that does not go through the writer, and whose write fails.
def longRecord : Bytes := List.replicate bufferCapacity 0

def writeRefused : AppendFaults := { noFaults with recordWrite := true }

-- The record is there when the store of the next segment cannot be created.
def creationRefused : AppendFaults := { noFaults with creation := some 0 }

end RaftLog.Faults
