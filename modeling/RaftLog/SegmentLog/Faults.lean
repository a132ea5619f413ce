import RaftLog.SegmentLog.Truncating

set_option autoImplicit false

namespace RaftLog.SegmentLog

open Lib

-- A call of the log returns the operating system's error, or fails by itself.
inductive Failed where
  | os
  | log (failure : Failure)
deriving DecidableEq, Repr

-- Which system calls of an append fail. A flush fails when it has written this many bytes,
-- the creation of the next segment when it has done this many of its writes.
structure AppendFaults where
  lengthFlush : Option Nat
  recordFlush : Option Nat
  recordWrite : Bool
  flush : Option Nat
  syncData : Bool
  creation : Option (Fin 3)
deriving DecidableEq, Repr

def noFaults : AppendFaults := ⟨none, none, false, none, false, none⟩

-- BufWriter::flush_buf: the buffer that is kept, and the writes that reach the file.
def flushBuf (fault : Option Nat) (buffer : Bytes) : Bytes × List Bytes × Except Failed Unit :=
  match fault with
  | none => ([], flushed buffer, .ok ())
  | some out =>
      if out < buffer.length then (buffer.drop out, flushed (buffer.take out), .error .os)
      else ([], flushed buffer, .ok ())

-- A write that fails has taken none of the bytes.
def bufferWriteWith (flushFault : Option Nat) (writeFault : Bool) (buffer bytes : Bytes) :
    Bytes × List Bytes × Except Failed Unit :=
  match if bytes.length > bufferCapacity - buffer.length then flushBuf flushFault buffer else (buffer, [], .ok ()) with
  | (kept, out, .error failed) => (kept, out, .error failed)
  | (kept, out, .ok ()) =>
      if bytes.length ≥ bufferCapacity then
        if writeFault then (kept, out, .error .os) else (kept, out ++ [bytes], .ok ())
      else (kept ++ bytes, out, .ok ())

def Store.appendWith (store : Store) (syncWrites : Bool) (record : Bytes) (faults : AppendFaults) :
    Store × List Bytes × Except Failed Unit :=
  match bufferWriteWith faults.lengthFlush false store.buffer (toBytes lengthWidth record.length) with
  | (kept, lengthOut, .error failed) => (⟨store.size, kept⟩, lengthOut, .error failed)
  | (first, lengthOut, .ok ()) =>
      match bufferWriteWith faults.recordFlush faults.recordWrite first record with
      | (kept, recordOut, .error failed) => (⟨store.size, kept⟩, lengthOut ++ recordOut, .error failed)
      | (second, recordOut, .ok ()) =>
          let size := store.size + (record.length + lengthWidth)
          if syncWrites then
            match flushBuf faults.flush second with
            | (kept, out, .error failed) => (⟨size, kept⟩, lengthOut ++ recordOut ++ out, .error failed)
            | (kept, out, .ok ()) =>
                (⟨size, kept⟩, lengthOut ++ recordOut ++ out, if faults.syncData then .error .os else .ok ())
          else (⟨size, second⟩, lengthOut ++ recordOut, .ok ())

def Segment.appendWith (cfg : Config) (segment : Segment) (record : Bytes) (faults : AppendFaults) :
    Segment × List Write × Except Failed Nat :=
  let position := segment.store.size
  match segment.store.appendWith cfg.syncWrites record faults with
  | (store, chunks, .error failed) =>
      ({ segment with store := store }, storeWrites segment.baseOffset chunks, .error failed)
  | (store, chunks, .ok ()) =>
      let writes := storeWrites segment.baseOffset chunks
      match segment.index.write segment.baseOffset (segment.relative segment.nextOffset) position with
      | .error failure => ({ segment with store := store }, writes, .error (.log failure))
      | .ok (index, indexWrites) =>
          match checkedAdd u64Max segment.nextOffset 1 with
          | .error failure => ({ segment with store := store, index := index }, writes ++ indexWrites, .error (.log failure))
          | .ok nextOffset =>
              ({ segment with store := store, index := index, nextOffset := nextOffset }, writes ++ indexWrites,
                .ok segment.nextOffset)

-- What fails is the creation of the store, that of the index, or the setting of its length.
def Segment.newWith (cfg : Config) (dir : Dir) (baseOffset : Nat) (fault : Option (Fin 3)) :
    List Write × Except Failed Segment :=
  match fault with
  | none => ((Segment.new cfg dir baseOffset).1, (Segment.new cfg dir baseOffset).2.mapError .log)
  | some done => ((Segment.new cfg dir baseOffset).1.take done, .error .os)

def Log.appendWith (cfg : Config) (log : Log) (dir : Dir) (record : Bytes) (faults : AppendFaults) :
    Log × List Write × Except Failed Nat :=
  match log.segments[log.activeIndex]? with
  | none => (log, [], .error (.log (.panic "index out of bounds")))
  | some active =>
      match active.appendWith cfg record faults with
      | (active, writes, .error failed) =>
          ({ log with segments := log.segments.set log.activeIndex active }, writes, .error failed)
      | (active, writes, .ok off) =>
          let segments := log.segments.set log.activeIndex active
          if active.isMaxed cfg then
            match Segment.newWith cfg (dir.applyAll writes) (off + 1) faults.creation with
            | (more, .error failed) => ({ log with segments := segments }, writes ++ more, .error failed)
            | (more, .ok segment) => (⟨log.activeIndex + 1, segments ++ [segment]⟩, writes ++ more, .ok off)
          else ({ log with segments := segments }, writes, .ok off)

def Segment.readWith (segment : Segment) (dir : Dir) (off : Nat) (buf : Bytes) (fault : Option Nat) :
    Segment × List Write × Bytes × Except Failed Unit :=
  if off < segment.baseOffset ∨ off ≥ segment.nextOffset then
    (segment, [], buf, .error (.log (.io .invalidInput "offset out of range")))
  else
    match segment.index.read (dir.index segment.baseOffset) (segment.relative off) with
    | .error failure => (segment, [], buf, .error (.log failure))
    | .ok (_, position) =>
        match flushBuf fault segment.store.buffer with
        | (kept, chunks, .error failed) =>
            ({ segment with store := { segment.store with buffer := kept } }, storeWrites segment.baseOffset chunks, buf,
              .error failed)
        | (kept, chunks, .ok ()) =>
            let writes := storeWrites segment.baseOffset chunks
            let (buf, result) := fetch ((dir.applyAll writes).store segment.baseOffset) position buf
            ({ segment with store := { segment.store with buffer := kept } }, writes, buf, result.mapError .log)

def Log.readWith (log : Log) (dir : Dir) (off : Nat) (buf : Bytes) (fault : Option Nat) :
    Log × List Write × Bytes × Except Failed Unit :=
  let cur := log.segments.findIdx (·.isInRange off)
  match log.segments[cur]? with
  | none => (log, [], buf, .error (.log (.io .unexpectedEof "offset out of range")))
  | some segment =>
      let (segment, writes, buf, result) := segment.readWith dir off buf fault
      ({ log with segments := log.segments.set cur segment }, writes, buf, result)

-- The system calls of Segment::remove, in their order.
inductive Call where
  | flush
  | syncStore
  | flushIndex
  | setIndexLen
  | syncIndex
  | nameStore
  | removeStore
  | nameIndex
  | removeIndex
deriving DecidableEq, Repr

def removeCalls : List Call :=
  [.flush, .syncStore, .flushIndex, .setIndexLen, .syncIndex, .nameStore, .removeStore, .nameIndex, .removeIndex]

def Segment.perform (segment : Segment) : Call → List FileOp
  | .flush => (storeWrites segment.baseOffset segment.store.flush.2).map .write
  | .setIndexLen => [.write (.setIndexLen segment.baseOffset segment.index.size)]
  | .removeStore => [.removeStore segment.baseOffset]
  | .removeIndex => [.removeIndex segment.baseOffset]
  | .syncStore | .flushIndex | .syncIndex | .nameStore | .nameIndex => []

-- The call that fails; when a flush does, this many bytes are written by the time the
-- segment is dropped.
structure RemoveFault where
  call : Call
  out : Nat
deriving DecidableEq, Repr

def Segment.removeWith (segment : Segment) (fault : Option RemoveFault) : List FileOp × Except Failed Unit :=
  match fault with
  | none => (segment.remove, .ok ())
  | some ⟨.flush, out⟩ =>
      if segment.store.buffer = [] then (segment.remove, .ok ())
      else ((storeWrites segment.baseOffset (flushed (segment.store.buffer.take out))).map .write, .error .os)
  | some ⟨call, _⟩ => ((removeCalls.takeWhile (· ≠ call)).flatMap segment.perform, .error .os)

-- The loop of Log::truncate, with the place in the vector of each segment that it removes.
def popSegmentsWith (off : Nat) (faults : Nat → Option RemoveFault) (activeIndex : Nat) :
    List Segment → (Nat × List Segment) × List FileOp × Except Failed Unit
  | [] => ((activeIndex, []), [], .ok ())
  | segment :: rest =>
      if segment.isLesserThanRange off then
        match segment.removeWith (faults rest.length) with
        | (ops, .error failed) => ((activeIndex, rest), ops, .error failed)
        | (ops, .ok ()) =>
            let (log, more, result) := popSegmentsWith off faults (activeIndex - 1) rest
            (log, ops ++ more, result)
      else ((activeIndex, segment :: rest), [], .ok ())

def Log.truncateWith (log : Log) (off : Nat) (faults : Nat → Option RemoveFault) : Log × List FileOp × Except Failed Unit :=
  let ((activeIndex, kept), ops, result) := popSegmentsWith off faults log.activeIndex log.segments.reverse
  (⟨activeIndex, kept.reverse⟩, ops, result)

section NoFaults

theorem buffer_write_with_none (buffer bytes : Bytes) :
    bufferWriteWith none false buffer bytes = ((bufferWrite buffer bytes).1, (bufferWrite buffer bytes).2, .ok ()) := by
  unfold bufferWriteWith bufferWrite
  by_cases overflows : bytes.length > bufferCapacity - buffer.length
  · simp only [if_pos overflows, flushBuf]
    split
    · rfl
    · rfl
  · simp only [if_neg overflows]
    split
    · rfl
    · rfl

theorem store_append_with_none (store : Store) (syncWrites : Bool) (record : Bytes) :
    store.appendWith syncWrites record noFaults =
      ((store.append syncWrites record).1, (store.append syncWrites record).2, .ok ()) := by
  simp only [Store.appendWith, Store.append, noFaults, buffer_write_with_none, flushBuf]
  split
  · rfl
  · rfl

theorem segment_append_with_none (cfg : Config) (segment : Segment) (record : Bytes) :
    segment.appendWith cfg record noFaults =
      ((segment.append cfg record).1, (segment.append cfg record).2.1, (segment.append cfg record).2.2.mapError .log) := by
  simp only [Segment.appendWith, Segment.append, store_append_with_none]
  cases segment.index.write segment.baseOffset (segment.relative segment.nextOffset) segment.store.size with
  | error failure => rfl
  | ok written =>
      dsimp only
      cases checkedAdd u64Max segment.nextOffset 1 with
      | error failure => rfl
      | ok nextOffset => rfl

theorem log_append_with_none (cfg : Config) (log : Log) (dir : Dir) (record : Bytes) :
    log.appendWith cfg dir record noFaults =
      ((log.append cfg dir record).1, (log.append cfg dir record).2.1, (log.append cfg dir record).2.2.mapError .log) := by
  unfold Log.appendWith Log.append
  cases log.segments[log.activeIndex]? with
  | none => rfl
  | some active =>
      simp only [segment_append_with_none]
      cases active.append cfg record with
      | mk segment outcome =>
          obtain ⟨writes, result⟩ := outcome
          cases result with
          | error failure => rfl
          | ok off =>
              dsimp only [Except.mapError]
              split
              · simp only [Segment.newWith, noFaults]
                cases Segment.new cfg (dir.applyAll writes) (off + 1) with
                | mk more created =>
                    cases created with
                    | error failure => rfl
                    | ok segment => rfl
              · rfl

theorem segment_read_with_none (segment : Segment) (dir : Dir) (off : Nat) (buf : Bytes) :
    segment.readWith dir off buf none =
      ((segment.read dir off buf).1, (segment.read dir off buf).2.1, (segment.read dir off buf).2.2.1,
        (segment.read dir off buf).2.2.2.mapError .log) := by
  unfold Segment.readWith Segment.read
  split
  · rfl
  · cases segment.index.read (dir.index segment.baseOffset) (segment.relative off) with
    | error failure => rfl
    | ok slot => rfl

theorem log_read_with_none (log : Log) (dir : Dir) (off : Nat) (buf : Bytes) :
    log.readWith dir off buf none =
      ((log.read dir off buf).1, (log.read dir off buf).2.1, (log.read dir off buf).2.2.1,
        (log.read dir off buf).2.2.2.mapError .log) := by
  simp only [Log.readWith, Log.read]
  cases log.segments[log.segments.findIdx (·.isInRange off)]? with
  | none => rfl
  | some segment => simp only [segment_read_with_none]

theorem remove_calls (segment : Segment) : removeCalls.flatMap segment.perform = segment.remove := by
  simp [removeCalls, Segment.perform, Segment.remove, Segment.close]

theorem pop_segments_with_none (off activeIndex : Nat) (segments : List Segment) :
    popSegmentsWith off (fun _ => none) activeIndex segments =
      ((activeIndex - (segments.length - (popSegments off segments).1.length), (popSegments off segments).1),
        (popSegments off segments).2, .ok ()) := by
  induction segments generalizing activeIndex with
  | nil => rfl
  | cons segment rest ih =>
      have short := pop_segments_length off rest
      rw [popSegmentsWith, popSegments]
      split
      · simp only [Segment.removeWith, ih, List.length_cons]
        rw [show activeIndex - 1 - (rest.length - (popSegments off rest).1.length) =
          activeIndex - (rest.length + 1 - (popSegments off rest).1.length) by omega]
      · simp

theorem truncate_with_none (log : Log) (off : Nat) :
    log.truncateWith off (fun _ => none) = ((log.truncate off).1, (log.truncate off).2, .ok ()) := by
  simp only [Log.truncateWith, pop_segments_with_none, List.length_reverse]
  rfl

end NoFaults

end RaftLog.SegmentLog

namespace RaftLog.Faults

open Lib SegmentLog

inductive Action where
  | append (record : Bytes) (faults : AppendFaults)
  | read (off : Nat) (buf : Bytes) (fault : Option Nat)
  | truncate (off : Nat) (faults : Nat → Option RemoveFault)

def panics {Value : Type} : Except Failed Value → Bool
  | .error (.log (.panic _)) => true
  | _ => false

-- A run ends where a thread unwinds.
def step (cfg : Config) (site : Site) : Action → Option Site
  | .append record faults =>
      let (log, writes, result) := site.log.appendWith cfg site.dir record faults
      if panics result then none else some ⟨site.dir.applyAll writes, log⟩
  | .read off buf fault =>
      let (log, writes, _, result) := site.log.readWith site.dir off buf fault
      if panics result then none else some ⟨site.dir.applyAll writes, log⟩
  | .truncate off faults =>
      let (log, ops, _) := site.log.truncateWith off faults
      some ⟨site.dir.performAll ops, log⟩

-- The directory may be what any earlier sessions have made of it.
def machine (cfg : Config) : Machine Site Action where
  start site := ∃ dir, (Log.new cfg dir).2 = .ok site.log ∧ site.dir = dir.applyAll (Log.new cfg dir).1
  step := step cfg

-- What holds of the segments whichever call has failed.
structure Sound (log : Log) : Prop where
  ordered : (log.segments.map Segment.baseOffset).Pairwise (· < ·)
  within : ∀ segment ∈ log.segments, segment.baseOffset ≤ segment.nextOffset
  active : log.segments.length ≤ log.activeIndex + 1

section Opened

variable (cfg : Config)

theorem checked_add_least (most left right sum : Nat) (added : checkedAdd most left right = .ok sum) : left ≤ sum := by
  rw [checkedAdd] at added
  split at added
  · cases added
    exact Nat.le_add_right left right
  · cases added

theorem segment_new_within (dir : Dir) (base : Nat) (segment : Segment) (opened : (Segment.new cfg dir base).2 = .ok segment) :
    segment.baseOffset = base ∧ base ≤ segment.nextOffset := by
  obtain ⟨index, _, rfl⟩ := segment_new_inv cfg dir base segment opened
  exact ⟨rfl, Nat.le_add_right base index.currentOffset⟩

theorem open_segments_within (offsets : List Nat) (dir : Dir) (segments : List Segment)
    (opened : (openSegments cfg dir offsets).2 = .ok segments) :
    segments.map Segment.baseOffset = offsets ∧ ∀ segment ∈ segments, segment.baseOffset ≤ segment.nextOffset := by
  induction offsets generalizing dir segments with
  | nil =>
      cases opened
      exact ⟨rfl, by simp⟩
  | cons base rest ih =>
      obtain ⟨segment, more, new, found, rfl, _⟩ := open_segments_cons cfg dir base rest segments opened
      obtain ⟨same, least⟩ := segment_new_within cfg dir base segment new
      obtain ⟨later, within⟩ := ih _ more found
      refine ⟨by rw [List.map_cons, same, later], fun other member => ?_⟩
      rcases List.mem_cons.mp member with rfl | behind
      · exact same ▸ least
      · exact within other behind

theorem bases_ascending (dir : Dir) : dir.bases.Pairwise (· < ·) := by
  have sorted := List.pairwise_insertionSort (· ≤ ·) (dir.stores.keys ++ dir.indexes.keys).dedup
  have apart : dir.bases.Nodup := (List.perm_insertionSort _ _).nodup_iff.mpr (List.nodup_dedup _)
  exact (sorted.and apart).imp fun both => Nat.lt_of_le_of_ne both.1 both.2

theorem opened_sound (dir : Dir) (log : Log) (opened : (Log.new cfg dir).2 = .ok log) : Sound log := by
  obtain ⟨segments, found, rfl⟩ := log_new_inv cfg dir log opened
  obtain ⟨same, within⟩ := open_segments_within cfg _ dir segments found
  refine ⟨?_, within, ?_⟩
  · rw [same]
    split
    · exact List.pairwise_singleton _ _
    · exact bases_ascending dir
  · exact Nat.le_add_of_sub_le le_rfl

end Opened

-- An item is replaced by one that is the same to a function or a test.
section Items

variable {Item : Type} (items : List Item) (place : Nat) (old item : Item) (here : items[place]? = some old)

include here

theorem map_set {Value : Type} (value : Item → Value) (same : value item = value old) :
    (items.set place item).map value = items.map value := by
  obtain ⟨bound, rfl⟩ := List.getElem?_eq_some_iff.mp here
  rw [List.map_set, same, ← List.getElem_map (f := value) (h := by simpa using bound)]
  exact List.set_getElem_self _

theorem find_set (test : Item → Bool) (same : test item = test old) : (items.set place item).findIdx test = items.findIdx test := by
  induction items generalizing place with
  | nil => rfl
  | cons first rest ih =>
      cases place with
      | zero =>
          cases here
          rw [List.set_cons_zero, List.findIdx_cons, List.findIdx_cons, same]
      | succ place => rw [List.set_cons_succ, List.findIdx_cons, List.findIdx_cons, ih place here]

end Items

section Replace

variable (log : Log) (sound : Sound log) (place : Nat) (old segment : Segment) (here : log.segments[place]? = some old)
  (same : segment.baseOffset = old.baseOffset)

include here same

theorem set_bases : (log.segments.set place segment).map Segment.baseOffset = log.segments.map Segment.baseOffset :=
  map_set log.segments place old segment here Segment.baseOffset same

include sound

theorem set_sound (within : segment.baseOffset ≤ segment.nextOffset) : Sound { log with segments := log.segments.set place segment } := by
  refine ⟨?_, fun other member => ?_, ?_⟩
  · rw [set_bases log place old segment here same]
    exact sound.ordered
  · rcases List.mem_or_eq_of_mem_set member with before | rfl
    · exact sound.within other before
    · exact within
  · rw [List.length_set]
    exact sound.active

end Replace

theorem pushed_sound (log : Log) (sound : Sound log) (segment : Segment)
    (above : ∀ base ∈ log.segments.map Segment.baseOffset, base < segment.baseOffset)
    (within : segment.baseOffset ≤ segment.nextOffset) : Sound ⟨log.activeIndex + 1, log.segments ++ [segment]⟩ := by
  refine ⟨?_, fun other member => ?_, ?_⟩
  · rw [List.map_append, List.map_singleton, List.pairwise_append]
    exact ⟨sound.ordered, List.pairwise_singleton _ _, fun base member _ last => List.mem_singleton.mp last ▸ above base member⟩
  · rcases List.mem_append.mp member with old | new
    · exact sound.within other old
    · rw [List.mem_singleton.mp new]
      exact within
  · rw [List.length_append, List.length_singleton]
    exact Nat.succ_le_succ sound.active

theorem segment_new_with_within (cfg : Config) (dir : Dir) (base : Nat) (segment : Segment) (fault : Option (Fin 3))
    (opened : (Segment.newWith cfg dir base fault).2 = .ok segment) :
    segment.baseOffset = base ∧ base ≤ segment.nextOffset := by
  cases fault with
  | some done => cases opened
  | none =>
      apply segment_new_within cfg dir base segment
      simp only [Segment.newWith] at opened
      cases created : (Segment.new cfg dir base).2 with
      | error failure =>
          rw [created] at opened
          cases opened
      | ok other =>
          rw [created] at opened
          cases opened
          rfl

section Steps

variable (cfg : Config) (dir : Dir)

-- An append moves the end of the segment by one, or leaves it.
structure Grows (segment after : Segment) (result : Except Failed Nat) : Prop where
  base : after.baseOffset = segment.baseOffset
  next : segment.nextOffset ≤ after.nextOffset
  accepted : ∀ off, result = .ok off → off = segment.nextOffset

theorem segment_append_grows (segment : Segment) (record : Bytes) (faults : AppendFaults) :
    Grows segment (segment.appendWith cfg record faults).1 (segment.appendWith cfg record faults).2.2 := by
  unfold Segment.appendWith
  dsimp only
  split
  · exact ⟨rfl, le_rfl, by simp⟩
  · split
    · exact ⟨rfl, le_rfl, by simp⟩
    · split
      · exact ⟨rfl, le_rfl, by simp⟩
      · rename_i next added
        refine ⟨rfl, checked_add_least _ _ _ next added, fun off same => ?_⟩
        cases same
        rfl

theorem bases_below_last (log : Log) (sound : Sound log) (active : Segment) (here : log.segments[log.activeIndex]? = some active) :
    ∀ base ∈ log.segments.map Segment.baseOffset, base ≤ active.baseOffset := by
  obtain ⟨bound, rfl⟩ := List.getElem?_eq_some_iff.mp here
  have last := sound.active
  intro base member
  obtain ⟨place, within, rfl⟩ := List.mem_iff_getElem.mp member
  rw [List.length_map] at within
  have ordered := List.pairwise_iff_getElem.mp sound.ordered place log.activeIndex (by simpa using within) (by simpa using bound)
  by_cases before : place < log.activeIndex
  · have below := ordered before
    rw [List.getElem_map, List.getElem_map] at below
    rw [List.getElem_map]
    exact below.le
  · have same : place = log.activeIndex := by omega
    subst same
    rw [List.getElem_map]

theorem append_sound (log : Log) (sound : Sound log) (record : Bytes) (faults : AppendFaults) :
    Sound (log.appendWith cfg dir record faults).1 := by
  unfold Log.appendWith
  cases here : log.segments[log.activeIndex]? with
  | none => exact sound
  | some active =>
      have grows := segment_append_grows cfg active record faults
      have least := sound.within active (List.mem_of_getElem? here)
      dsimp only
      cases appended : active.appendWith cfg record faults with
      | mk after outcome =>
          obtain ⟨writes, result⟩ := outcome
          rw [appended] at grows
          have replaced := set_sound log sound log.activeIndex active after here grows.base
            (grows.base ▸ least.trans grows.next)
          cases result with
          | error failed => exact replaced
          | ok off =>
              dsimp only
              split
              case isFalse => exact replaced
              cases created : Segment.newWith cfg (dir.applyAll writes) (off + 1) faults.creation with
              | mk more result =>
                  cases result with
                  | error failed => exact replaced
                  | ok segment =>
                      obtain ⟨base, within⟩ := segment_new_with_within cfg _ _ segment faults.creation (by rw [created])
                      apply pushed_sound _ replaced segment ?_ (base ▸ within)
                      intro other member
                      rw [set_bases log log.activeIndex active after here grows.base] at member
                      have below := bases_below_last log sound active here other member
                      rw [base, grows.accepted off rfl]
                      exact Nat.lt_succ_of_le (below.trans least)

theorem segment_read_same_bounds (segment : Segment) (off : Nat) (buf : Bytes) (fault : Option Nat) :
    (segment.readWith dir off buf fault).1.baseOffset = segment.baseOffset ∧
      (segment.readWith dir off buf fault).1.nextOffset = segment.nextOffset := by
  unfold Segment.readWith
  split
  · exact ⟨rfl, rfl⟩
  · split
    · exact ⟨rfl, rfl⟩
    · split
      · exact ⟨rfl, rfl⟩
      · exact ⟨rfl, rfl⟩

theorem read_sound (log : Log) (sound : Sound log) (off : Nat) (buf : Bytes) (fault : Option Nat) :
    Sound (log.readWith dir off buf fault).1 := by
  unfold Log.readWith
  dsimp only
  cases here : log.segments[log.segments.findIdx (·.isInRange off)]? with
  | none => exact sound
  | some segment =>
      obtain ⟨base, next⟩ := segment_read_same_bounds dir segment off buf fault
      have within := sound.within segment (List.mem_of_getElem? here)
      exact set_sound log sound _ segment _ here base (base ▸ next ▸ within)

-- The segments that stay are the first ones, and the active index goes down no faster than their number.
theorem pop_segments_prefix (off : Nat) (faults : Nat → Option RemoveFault) (segments : List Segment) (activeIndex : Nat)
    (most : segments.length ≤ activeIndex + 1) :
    (popSegmentsWith off faults activeIndex segments).1.2 <:+ segments ∧
      (popSegmentsWith off faults activeIndex segments).1.2.length ≤ (popSegmentsWith off faults activeIndex segments).1.1 + 1 := by
  induction segments generalizing activeIndex with
  | nil => exact ⟨List.suffix_rfl, Nat.zero_le _⟩
  | cons segment rest ih =>
      rw [List.length_cons] at most
      rw [popSegmentsWith]
      split
      case isFalse => exact ⟨List.suffix_rfl, most⟩
      split
      · exact ⟨List.suffix_cons segment rest, (Nat.le_succ _).trans most⟩
      · obtain ⟨suffix, shorter⟩ := ih (activeIndex - 1) (by omega)
        exact ⟨suffix.trans (List.suffix_cons segment rest), shorter⟩

theorem truncate_sound (log : Log) (sound : Sound log) (off : Nat) (faults : Nat → Option RemoveFault) :
    Sound (log.truncateWith off faults).1 := by
  obtain ⟨suffix, shorter⟩ := pop_segments_prefix off faults log.segments.reverse log.activeIndex
    (by rw [List.length_reverse]; exact sound.active)
  have kept : (log.truncateWith off faults).1.segments <+: log.segments := by
    rw [← List.reverse_suffix]
    simpa [Log.truncateWith] using suffix
  refine ⟨sound.ordered.sublist (kept.sublist.map _), fun segment member => sound.within segment (kept.subset member), ?_⟩
  simpa [Log.truncateWith] using shorter

theorem sound_run (site : Site) (run : Reachable (machine cfg) site) : Sound site.log := by
  refine run_invariant (machine cfg) _ (fun site => Sound site.log) ?_ ?_ site run
  · rintro ⟨dir, log⟩ ⟨before, opened, rfl⟩
    exact opened_sound cfg before log opened
  · intro site action next _ sound _ moves
    cases action with
    | append record faults =>
        simp only [machine, step] at moves
        split at moves
        · cases moves
        · cases moves
          exact append_sound cfg site.dir site.log sound record faults
    | read off buf fault =>
        simp only [machine, step] at moves
        split at moves
        · cases moves
        · cases moves
          exact read_sound site.dir site.log sound off buf fault
    | truncate off faults =>
        cases moves
        exact truncate_sound site.log sound off faults

end Steps

end RaftLog.Faults
