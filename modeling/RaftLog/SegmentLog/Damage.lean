import RaftLog.SegmentLog.Counting
import RaftLog.SegmentLog.Failures
import RaftLog.SegmentLog.Sequence

set_option autoImplicit false

namespace RaftLog.Damage

open Lib SegmentLog Sequence

-- The same files, with the same indexes; the stores may hold any bytes.
structure SameIndexes (dir damaged : Dir) : Prop where
  names : ∀ base, damaged.has base ↔ dir.has base
  indexes : ∀ base, damaged.index base = dir.index base

-- A segment opened over another directory's store.
def onStore (damaged : Dir) (segment : Segment) : Segment := { segment with store := Store.new (damaged.store segment.baseOffset) }

def logOver (damaged : Dir) (log : Log) : Log := { log with segments := log.segments.map (onStore damaged) }

section Same

variable (dir damaged : Dir) (same : SameIndexes dir damaged)

include same

theorem same_apply (write : Write) : SameIndexes (dir.apply write) (damaged.apply write) := by
  constructor
  · intro base
    rw [apply_has, apply_has, same.names]
  · intro base
    by_cases own : base = write.base
    · subst own
      cases write with
      | createStore | appendStore => exact same.indexes _
      | createIndex | setIndexLen | fillIndex | copyOffset | copyPosition =>
          simp only [Dir.apply, Write.base, put_index_index, same.indexes]
    · rw [apply_index_other _ _ _ own, apply_index_other _ _ _ own]
      exact same.indexes base

theorem same_apply_all (writes : List Write) : SameIndexes (dir.applyAll writes) (damaged.applyAll writes) := by
  induction writes generalizing dir damaged with
  | nil => exact same
  | cons write rest ih => exact ih _ _ (same_apply dir damaged same write)

theorem same_bases : damaged.bases = dir.bases :=
  bases_eq damaged dir.bases (Faults.bases_ascending dir) fun base => (same.names base).trans (mem_bases dir base).symm

variable (cfg : Config)

theorem segment_new_over (base : Nat) : (Segment.new cfg damaged base).1 = (Segment.new cfg dir base).1 ∧
    (Segment.new cfg damaged base).2 = (Segment.new cfg dir base).2.map (onStore damaged) := by
  rw [Segment.new, Segment.new, same.indexes]
  refine ⟨rfl, ?_⟩
  dsimp only
  cases (Index.new cfg.maxSizeBytes base (dir.index base)).2 with
  | error failure => rfl
  | ok index =>
      simp only [bind, Except.bind]
      split
      · cases checkedAdd u64Max base index.currentOffset with
        | error failure => rfl
        | ok next => rfl
      · rfl

theorem open_segments_over (offsets : List Nat) :
    (openSegments cfg damaged offsets).1 = (openSegments cfg dir offsets).1 ∧
      (openSegments cfg damaged offsets).2 = (openSegments cfg dir offsets).2.map (List.map (onStore damaged)) := by
  induction offsets generalizing dir damaged with
  | nil => exact ⟨rfl, rfl⟩
  | cons off rest ih =>
      obtain ⟨writes, result⟩ := segment_new_over dir damaged same cfg off
      have kept := segment_new_stores cfg damaged off
      rw [openSegments, openSegments]
      cases first : Segment.new cfg dir off with
      | mk opening opened =>
          cases again : Segment.new cfg damaged off with
          | mk opening' opened' =>
              rw [first, again] at writes result
              rw [again] at kept
              obtain rfl : opening' = opening := writes
              cases opened with
              | error failure =>
                  obtain rfl : opened' = .error failure := result
                  exact ⟨rfl, rfl⟩
              | ok segment =>
                  obtain rfl : opened' = .ok (onStore damaged segment) := result
                  obtain ⟨more, later⟩ := ih _ _ (same_apply_all dir damaged same opening')
                  have stores : onStore (damaged.applyAll opening') = onStore damaged := by
                    funext segment
                    exact congrArg (fun bytes => { segment with store := Store.new bytes }) (kept segment.baseOffset)
                  dsimp only
                  rw [more, later, stores]
                  refine ⟨rfl, ?_⟩
                  cases (openSegments cfg (dir.applyAll opening') rest).2 with
                  | error failure => rfl
                  | ok segments => rfl

theorem log_new_over : (Log.new cfg damaged).1 = (Log.new cfg dir).1 ∧
    (Log.new cfg damaged).2 = (Log.new cfg dir).2.map (logOver damaged) := by
  have opened := open_segments_over dir damaged same cfg (if dir.bases = [] then [cfg.initalOffset] else dir.bases)
  rw [Log.new, Log.new, same_bases dir damaged same]
  refine ⟨opened.1, ?_⟩
  dsimp only
  rw [opened.2]
  cases (openSegments cfg dir (if dir.bases = [] then [cfg.initalOffset] else dir.bases)).2 with
  | error failure => rfl
  | ok segments => simp [Except.map, logOver]

end Same

-- A record is fetched exactly where its frame stands.
theorem fetch_iff (file : Bytes) (position : Nat) (record buf : Bytes)
    (fits : position + lengthWidth + record.length ≤ i64Max) :
    fetch file position buf = (record, .ok ()) ↔
      slice file position (lengthWidth + record.length) = frame lengthWidth record := by
  constructor
  · intro fetched
    obtain ⟨_, begins⟩ := (framed_iff lengthWidth file position record).mp (fetch_inv file position record buf fetched)
    rw [slice, ← length_frame lengthWidth record]
    exact (List.prefix_iff_eq_take.mp begins).symm
  · intro stands
    have within : position + (lengthWidth + record.length) ≤ file.length := by
      have length := congrArg List.length stands
      rw [length_frame, slice, List.length_take, List.length_drop] at length
      have positive : 0 < lengthWidth := by decide
      omega
    have length : (file.take (position + (lengthWidth + record.length))).length = position + (lengthWidth + record.length) :=
      List.length_take_of_le within
    have framed : Framed lengthWidth (file.take (position + (lengthWidth + record.length)) ++ []) position record := by
      rw [List.append_nil, framed_iff, List.drop_take, Nat.add_sub_cancel_left, length]
      exact ⟨Nat.le_add_right _ _, stands ▸ List.prefix_refl _⟩
    have small : (file.take (position + (lengthWidth + record.length)) ++ []).length ≤ i64Max := by
      rw [List.append_nil, length, ← Nat.add_assoc]
      exact fits
    rcases fetch_framed _ [] position record buf framed small with read | ⟨_, lost⟩
    · have longer := Faults.fetch_longer _ (file.drop (position + (lengthWidth + record.length))) position buf record read
      rwa [List.take_append_drop] at longer
    · exact absurd rfl lost

-- The bytes at a position of a store are all that the read of a record depends on.
structure Depends (cfg : Config) (dir : Dir) (off : Nat) (record : Bytes) (base position : Nat) : Prop where
  stands : slice (dir.store base) position (lengthWidth + record.length) = frame lengthWidth record
  only : ∀ damaged, SameIndexes dir damaged → ∃ log, (Log.new cfg damaged).2 = .ok log ∧ ∀ buf,
    (log.read (damaged.applyAll (Log.new cfg damaged).1) off buf).2.2 = (record, .ok ()) ↔
      slice (damaged.store base) position (lengthWidth + record.length) = frame lengthWidth record

section Read

variable (cfg : Config) (terms : Terms) (dir : Dir)

-- The slot of a record gives its position.
theorem slot_read (extent : Extent) (segment : Segment) (loaded : Loaded cfg terms dir extent segment) (number position : Nat)
    (record : Bytes) (found : extent.records[number]? = some (position, record)) :
    ∃ slot, segment.index.read (dir.index extent.base) number = .ok (slot, position) := by
  have within := framed_within lengthWidth _ _ _ (loaded.held.framed _ (List.mem_of_getElem? found))
  have small : position < 2 ^ 64 := by
    have fits := loaded.held.fits
    unfold i64Max at fits
    dsimp only at within
    omega
  exact index_read segment.index (dir.index extent.base) extent.positions loaded.held.indexed
    (by rw [loaded.index, length_positions]) (by rw [loaded.index, loaded.mapped]) number position
    (by rw [Extent.positions, List.getElem?_map, found]; rfl) small

theorem read_on_store (damaged : Dir) (log : Log) (off : Nat) (buf : Bytes) (segment : Segment) (slot position : Nat)
    (stops : log.segments[log.segments.findIdx (·.isInRange off)]? = some segment) (inside : segment.isInRange off = true)
    (read : segment.index.read (damaged.index segment.baseOffset) (segment.relative off) = .ok (slot, position)) :
    ((logOver damaged log).read damaged off buf).2.2 = fetch (damaged.store segment.baseOffset) position buf := by
  have cur : (logOver damaged log).segments.findIdx (·.isInRange off) = log.segments.findIdx (·.isInRange off) :=
    List.findIdx_map _ _ _
  have here : (logOver damaged log).segments[log.segments.findIdx (·.isInRange off)]? = some (onStore damaged segment) := by
    rw [logOver, List.getElem?_map, stops]
    rfl
  have range : ¬ (off < (onStore damaged segment).baseOffset ∨ off ≥ (onStore damaged segment).nextOffset) := by
    simp only [Segment.isInRange, Bool.and_eq_true, decide_eq_true_eq] at inside
    simp only [onStore]
    omega
  have result := Faults.segment_read_result damaged off buf (onStore damaged segment)
  rw [if_neg range] at result
  rw [Log.read, cur, here]
  refine result.trans ?_
  have slotRead : (onStore damaged segment).index.read (damaged.index (onStore damaged segment).baseOffset)
      ((onStore damaged segment).relative off) = .ok (slot, position) := read
  rw [slotRead]
  exact congrArg (fetch · position buf) (List.append_nil _)

end Read

theorem log_new_stores (cfg : Config) (dir : Dir) (base : Nat) :
    (dir.applyAll (Log.new cfg dir).1).store base = dir.store base := open_segments_stores cfg dir _ base

theorem log_over_opened (cfg : Config) (damaged : Dir) (log : Log) :
    logOver (damaged.applyAll (Log.new cfg damaged).1) log = logOver damaged log := by
  have stores : onStore (damaged.applyAll (Log.new cfg damaged).1) = onStore damaged := by
    funext segment
    exact congrArg (fun bytes => { segment with store := Store.new bytes }) (log_new_stores cfg damaged segment.baseOffset)
  rw [logOver, stores, logOver]

theorem log_over_next (damaged : Dir) (log : Log) : (logOver damaged log).nextOffset = log.nextOffset := by
  rw [Log.nextOffset, Log.nextOffset, logOver, List.getElem?_map]
  cases log.segments[log.activeIndex]? with
  | none => rfl
  | some segment => rfl

-- Nothing waits in the buffers of a log that has just been opened.
theorem opened_buffers (cfg : Config) (dir : Dir) (log : Log) (opened : (Log.new cfg dir).2 = .ok log) (segment : Segment)
    (member : segment ∈ log.segments) : segment.store.buffer = [] := by
  have again := (log_new_over dir dir ⟨fun _ => Iff.rfl, fun _ => rfl⟩ cfg).2
  rw [opened] at again
  have same : log = logOver dir log := Except.ok.inj again
  rw [same] at member
  obtain ⟨_, _, rfl⟩ := List.mem_map.mp member
  rfl

theorem stands_depends (cfg : Config) (terms : Terms) (dir : Dir) (log : Log) (opened : (Log.new cfg dir).2 = .ok log)
    (data : List Bytes) (stands : Stands cfg terms (dir.applyAll (Log.new cfg dir).1) (some log) data)
    (whole : terms.whole = true) (narrow : terms.limit ≤ 2 ^ 32) (number : Nat) (record : Bytes)
    (found : data[number]? = some record) :
    ∃ base position, Depends cfg dir (cfg.initalOffset + number) record base position := by
  cases stands with
  | up _ before active up =>
      rw [dataOf, List.getElem?_map, Option.map_eq_some_iff] at found
      obtain ⟨⟨position, _⟩, listed, rfl⟩ := found
      obtain ⟨segment, stops⟩ := read_found cfg terms _ log before active up number (List.getElem?_eq_some_iff.mp listed).1
      obtain ⟨pair, there, rfl, least, most⟩ := read_stops cfg terms _ log before active up _ segment stops
      have member := List.mem_of_getElem? there
      have loaded := up.loaded pair member
      have inside := (in_range_iff cfg terms _ log before active up pair member _).mpr ⟨least, most⟩
      obtain ⟨inner, offset⟩ := Nat.exists_eq_add_of_le least
      rw [Extent.next, offset] at most
      have bound : inner < pair.1.records.length := Nat.lt_of_add_lt_add_left most
      have entry := chained_get Extent.base Extent.records cfg.initalOffset _ (extents_chained before active _ up.extents)
        pair.1 (List.mem_map_of_mem member) inner bound
      rw [← offset, Nat.add_sub_cancel_left] at entry
      have entry := entry.symm.trans listed
      have relative : pair.2.relative (cfg.initalOffset + number) = inner := by
        rw [Segment.relative, loaded.base, offset, Nat.add_sub_cancel_left]
        exact slot_of_few cfg terms _ pair.1 pair.2 loaded inner bound narrow
      obtain ⟨slot, read⟩ := slot_read cfg terms _ pair.1 pair.2 loaded inner position _ entry
      -- the store has the whole frame: nothing is buffered and nothing was lost
      have stream : pair.1.stream (dir.applyAll (Log.new cfg dir).1) pair.2.store.buffer = dir.store pair.1.base := by
        have buffer := opened_buffers cfg dir log opened pair.2 (List.mem_of_getElem? stops)
        rw [Extent.stream, buffer, loaded.held.kept whole, log_new_stores, List.append_nil, List.append_nil]
      have framed := loaded.held.framed _ (List.mem_of_getElem? entry)
      have within := framed_within lengthWidth _ _ _ framed
      have fits := loaded.held.fits
      rw [stream] at framed within fits
      have reads := fun file buf => fetch_iff file position _ buf (within.trans fits)
      refine ⟨pair.1.base, position, ?_, ?_⟩
      · obtain ⟨_, begins⟩ := (framed_iff lengthWidth _ _ _).mp framed
        rw [slice, ← length_frame lengthWidth]
        exact (List.prefix_iff_eq_take.mp begins).symm
      · intro damaged same
        obtain ⟨writes, result⟩ := log_new_over dir damaged same cfg
        rw [opened] at result
        refine ⟨logOver damaged log, result, fun buf => ?_⟩
        have indexes := (same_apply_all dir damaged same (Log.new cfg dir).1).indexes pair.1.base
        rw [← writes] at indexes
        have here := read_on_store (damaged.applyAll (Log.new cfg damaged).1) log (cfg.initalOffset + number) buf pair.2 slot
          position stops inside (by rw [relative, loaded.base, indexes, writes]; exact read)
        rw [log_over_opened, log_new_stores, loaded.base] at here
        rw [here]
        exact reads _ buf

-- Whatever becomes of the bytes in the stores, a record reads back if and only if its own are
-- still there, and the log opens with the offsets it had.
theorem damage_contained (cfg : Config) (trace : List (SequenceOp Bytes × SequenceReply Bytes)) (holder : Holder)
    (run : Trace (object cfg) trace holder) (closed : holder.log = none) :
    ∃ data, Trace (sequence Bytes cfg.initalOffset) trace data ∧
      (∀ damaged, SameIndexes holder.dir damaged →
        ∃ log, (Log.new cfg damaged).2 = .ok log ∧ log.nextOffset = .ok (cfg.initalOffset + data.length)) ∧
      ∀ number record, data[number]? = some record →
        ∃ base position, Depends cfg holder.dir (cfg.initalOffset + number) record base position := by
  obtain ⟨data, model, related⟩ := trace_simulated _ _ _ (sequence_simulates cfg) trace holder run
  rw [Related, closed] at related
  obtain ⟨log, opened⟩ := stands_opens cfg (limits cfg) holder.dir data related le_rfl
  have stands := stands_start cfg (limits cfg) holder.dir data related log opened
  refine ⟨data, model, fun damaged same => ?_, fun number record found => ?_⟩
  · have result := (log_new_over holder.dir damaged same cfg).2
    rw [opened] at result
    refine ⟨logOver damaged log, result, ?_⟩
    rw [log_over_next]
    exact stands_next_offset cfg (limits cfg) _ log data stands
  · exact stands_depends cfg (limits cfg) holder.dir log opened data stands rfl (limits_narrow cfg).le number record found

-- Three records in one segment; then the length of the second is overwritten.
def appendThree : List (SequenceOp Bytes) := [.start, .append [1], .append [2, 2], .append [3], .close]

def threeRecords : List (SequenceOp Bytes × SequenceReply Bytes) × Holder :=
  (respond ⟨0, false, 48, 1024⟩ appendThree [] ⟨emptyDir, none⟩).getD ([], ⟨emptyDir, none⟩)

def secondDamaged : Dir := threeRecords.2.dir.putStore 0 (overwrite (threeRecords.2.dir.store 0) 9 (List.replicate 8 0xFF))

theorem third_record_unharmed :
    (∃ (data : List Bytes) (log : Log), (Log.new ⟨0, false, 48, 1024⟩ secondDamaged).2 = .ok log ∧
      log.nextOffset = .ok (0 + data.length)) ∧
    (Log.new ⟨0, false, 48, 1024⟩ secondDamaged).2.toOption.map (fun log =>
      [0, 1, 2].map fun off => (log.read (secondDamaged.applyAll (Log.new ⟨0, false, 48, 1024⟩ secondDamaged).1) off []).2.2) =
        some [([1], .ok ()), ([], .error (.panic "capacity overflow")), ([3], .ok ())] := by
  have run : Trace (object ⟨0, false, 48, 1024⟩) threeRecords.1 threeRecords.2 :=
    respond_trace ⟨0, false, 48, 1024⟩ appendThree [] threeRecords.1 ⟨emptyDir, none⟩ threeRecords.2 (.start _ rfl)
      (comes_to (respond ⟨0, false, 48, 1024⟩ appendThree [] ⟨emptyDir, none⟩) ([], ⟨emptyDir, none⟩) (by decide +kernel))
  have there : threeRecords.2.dir.has 0 := .inl (by decide +kernel)
  have same : SameIndexes threeRecords.2.dir secondDamaged :=
    ⟨fun base => (put_store_has _ 0 base _).trans (or_iff_right_of_imp fun own => own ▸ there), fun _ => rfl⟩
  obtain ⟨data, _, opens, _⟩ := damage_contained ⟨0, false, 48, 1024⟩ threeRecords.1 threeRecords.2 run (by decide +kernel)
  exact ⟨⟨data, opens secondDamaged same⟩, by decide +kernel⟩

-- The slots from the first one on carry their own numbers.
def Numbered (content : Bytes) (count : Nat) : Prop :=
  ∀ number < count, entireWidth * number + entireWidth ≤ content.length ∧
    ofBytes (slice content (entireWidth * number) offWidth) = number

theorem numbered_succ (content : Bytes) (count : Nat) (numbered : Numbered content count)
    (room : entireWidth * count + entireWidth ≤ content.length)
    (own : ofBytes (slice content (entireWidth * count) offWidth) = count) : Numbered content (count + 1) := by
  intro number below
  rcases Nat.lt_succ_iff_lt_or_eq.mp below with before | rfl
  · exact numbered number before
  · exact ⟨room, own⟩

-- What the loop of recover_size makes of any bytes.
inductive Recovers (content : Bytes) : Except Failure Nat → Prop where
  | stops (count : Nat) (few : count < 2 ^ 32) (numbered : Numbered content count) (next : ¬ Numbered content (count + 1)) :
      Recovers content (.ok (entireWidth * count))
  | overflows (numbered : Numbered content (2 ^ 32)) : Recovers content (.error (.panic "attempt to add with overflow"))

theorem recover_from_any (content : Bytes) (fuel count : Nat) (few : count < 2 ^ 32) (numbered : Numbered content count)
    (enough : content.length < entireWidth * (count + fuel + 1)) :
    Recovers content (recoverFrom content (entireWidth * count) count fuel) := by
  have last : ¬ (entireWidth * count + entireWidth ≤ content.length ∧
      ofBytes (slice content (entireWidth * count) offWidth) = count) → ¬ Numbered content (count + 1) :=
    fun stops next => stops (next count (Nat.lt_succ_self count))
  induction fuel generalizing count with
  | zero =>
      refine .stops count few numbered (last fun both => ?_)
      rw [Nat.mul_succ] at enough
      exact Nat.not_le_of_lt enough both.1
  | succ fuel ih =>
      rw [recoverFrom]
      split
      case isFalse outside => exact .stops count few numbered (last fun both => outside both.1)
      rename_i room
      split
      · rename_i other
        exact .stops count few numbered (last fun both => other both.2)
      rename_i own
      have more := numbered_succ content count numbered room (not_not.mp own)
      by_cases fits : count + 1 ≤ u32Max
      · rw [checkedAdd, if_pos fits]
        have small : count + 1 < 2 ^ 32 := by
          unfold u32Max at fits
          omega
        refine ih (count + 1) small more ?_ ?_
        · rwa [Nat.add_right_comm count 1 fuel]
        · exact fun stops next => stops (next (count + 1) (Nat.lt_succ_self _))
      · have all : count + 1 = 2 ^ 32 := by
          unfold u32Max at fits
          omega
        rw [checkedAdd, if_neg fits]
        exact .overflows (all ▸ more)

theorem recover_any (content : Bytes) : Recovers content (recoverSize content) := by
  have first : Numbered content 0 := fun number below => absurd below (Nat.not_lt_zero number)
  refine recover_from_any content content.length 0 (by decide) first ?_
  rw [entireWidth, offWidth, positionWidth]
  omega

-- Whatever bytes a crash or the disk has left in an index of full size, recovery counts the
-- slots up to the first that does not carry its own number, and no offset is ever looked up
-- in the slot of another one.
theorem index_recovered (maxSizeBytes base : Nat) (file : Bytes) (some : file ≠ []) (full : file.length = maxSizeBytes) :
    (∃ count, (Index.new maxSizeBytes base file).2 = .ok ⟨entireWidth * count, maxSizeBytes⟩ ∧ count < 2 ^ 32 ∧
      Numbered file count ∧ ¬ Numbered file (count + 1) ∧
      ∀ off, (off < count → ∃ position, Index.read ⟨entireWidth * count, maxSizeBytes⟩ file off = .ok (off, position)) ∧
        (count ≤ off → Index.read ⟨entireWidth * count, maxSizeBytes⟩ file off =
          .error (.io .unexpectedEof "offset bigger than index size"))) ∨
    (Index.new maxSizeBytes base file).2 = .error (.panic "attempt to add with overflow") ∧ Numbered file (2 ^ 32) := by
  have kept : resize file maxSizeBytes = file := by
    rw [resize_longer file maxSizeBytes full.le, full, Nat.sub_self, List.replicate_zero, List.append_nil]
  have opened : (Index.new maxSizeBytes base file).2 = (recoverSize file).map fun size => ⟨size, maxSizeBytes⟩ := by
    rw [Index.new, if_neg (fun empty => some (List.length_eq_zero_iff.mp empty)), if_pos full, kept]
  have recovers := recover_any file
  cases result : recoverSize file with
  | error failure =>
      rw [result] at recovers opened
      cases recovers with
      | overflows numbered => exact .inr ⟨opened, numbered⟩
  | ok size =>
      rw [result] at recovers opened
      cases recovers with
      | stops count few numbered next =>
          refine .inl ⟨count, opened, few, numbered, next, fun off => ⟨fun below => ?_, fun beyond => ?_⟩⟩
          · obtain ⟨room, own⟩ := numbered off below
            have within : off * entireWidth + entireWidth ≤ entireWidth * count := by
              rw [Nat.mul_comm off, ← Nat.mul_succ]
              exact Nat.mul_le_mul_left entireWidth below
            refine ⟨ofBytes (slice file (off * entireWidth + offWidth) positionWidth), ?_⟩
            rw [Index.read]
            dsimp only
            rw [if_neg (Nat.not_lt.mpr within), if_neg (Nat.not_lt.mpr (full ▸ Nat.mul_comm off entireWidth ▸ room)),
              Nat.mul_comm off, own]
          · have outside : off * entireWidth + entireWidth > entireWidth * count := by
              have least := Nat.mul_le_mul_left entireWidth beyond
              have wide : 0 < entireWidth := by decide
              rw [Nat.mul_comm off]
              omega
            rw [Index.read]
            exact if_pos outside

-- The number in the third slot is damaged.
def damagedIndex : Bytes := overwrite (slots slotBytes 0 [0, 9, 19]) 24 [1]

theorem damaged_index_recovered : ∃ count, (Index.new 36 0 damagedIndex).2 = .ok ⟨entireWidth * count, 36⟩ ∧
    ∀ off < count, ∃ position, Index.read ⟨entireWidth * count, 36⟩ damagedIndex off = .ok (off, position) := by
  rcases index_recovered 36 0 damagedIndex (by decide +kernel) (by decide +kernel) with
    ⟨count, opened, _, _, _, reads⟩ | ⟨overflows, _⟩
  · exact ⟨count, opened, fun off => (reads off).1⟩
  · exact absurd overflows (by decide +kernel)

end RaftLog.Damage
