import RaftLog.Lib.Machine
import RaftLog.SegmentLog.Interrupted

set_option autoImplicit false

namespace RaftLog.SegmentLog

open Lib

def dataOf (extents : List Extent) : List Bytes := (contents Extent.records extents).map Prod.snd

theorem data_of_add (before : List Extent) (extent : Extent) (position : Nat) (record : Bytes) :
    dataOf (before ++ [extent.add position record]) = dataOf (before ++ [extent]) ++ [record] := by
  simp [dataOf, contents, Extent.add]

theorem data_of_following (before : List Extent) (extent : Extent) :
    dataOf (before ++ [extent.following]) = dataOf before := by
  simp [dataOf, contents, Extent.following]

theorem data_of_crashed (pairs : List (Extent × Segment)) : dataOf (crashedExtents pairs) = dataOf (pairs.map Prod.fst) := by
  have crashed := contents_map (fun pair : Extent × Segment => pair.1.records) Extent.records
    (fun pair => pair.1.crashed pair.2.store.buffer) (fun _ => rfl) pairs
  have same := contents_map (fun pair : Extent × Segment => pair.1.records) Extent.records Prod.fst (fun _ => rfl) pairs
  exact congrArg (List.map Prod.snd) (crashed.trans same.symm)

-- A log, open or not, is the list of its records.
inductive Stands (cfg : Config) (terms : Terms) (dir : Dir) : Option Log → List Bytes → Prop where
  | down (before : List Extent) (active : Extent) (down : Down cfg terms dir before active) :
      Stands cfg terms dir none (dataOf (before ++ [active]))
  | up (log : Log) (before : List (Extent × Segment)) (active : Extent × Segment) (up : Up cfg terms dir log before active) :
      Stands cfg terms dir (some log) (dataOf (extentsOf before active))

def Log.active? (log : Log) : Option Segment := log.segments[log.activeIndex]?

-- No file grows beyond what its offsets can address.
def Log.fits (log : Log) (record : Bytes) : Bool :=
  log.active?.all fun active => decide (active.store.size + (frame lengthWidth record).length ≤ i64Max)

-- The active segment has room for no entry, or fewer entries than the limit.
def Log.roomFor (limit : Nat) (log : Log) : Bool :=
  log.active?.all fun active =>
    decide (active.index.size + entireWidth > active.index.mapped) || decide (active.index.currentOffset < limit)

section Steps

variable (cfg : Config) (terms : Terms) (dir : Dir)

theorem stands_next (log : Log) (before : List (Extent × Segment)) (active : Extent × Segment)
    (up : Up cfg terms dir log before active) :
    active.1.next = cfg.initalOffset + (dataOf (extentsOf before active)).length := by
  have chained := (chained_last Extent.base Extent.records _ _ _).mp up.extents.chained
  rw [Extent.next, chained.2, dataOf, List.length_map, extents_of_snoc, contents_append, List.length_append, Nat.add_assoc]
  simp [contents]

theorem up_next_offset (log : Log) (before : List (Extent × Segment)) (active : Extent × Segment)
    (up : Up cfg terms dir log before active) :
    log.nextOffset = .ok (cfg.initalOffset + (dataOf (extentsOf before active)).length) := by
  rw [Log.nextOffset, up_active cfg terms dir log before active up, ← stands_next cfg terms dir log before active up]
  exact congrArg _ (up_active_loaded cfg terms dir log before active up).next

theorem up_fits (log : Log) (before : List (Extent × Segment)) (active : Extent × Segment) (record : Bytes)
    (up : Up cfg terms dir log before active) (fits : log.fits record = true) :
    active.2.store.size + (frame lengthWidth record).length ≤ i64Max := by
  rw [Log.fits, Log.active?, up_active cfg terms dir log before active up, Option.all_some, decide_eq_true_eq] at fits
  exact fits

theorem up_room (limit : Nat) (log : Log) (before : List (Extent × Segment)) (active : Extent × Segment)
    (up : Up cfg terms dir log before active) (room : log.roomFor limit = true) :
    ¬ Full cfg active.1 → active.1.records.length < limit := by
  have loaded := up_active_loaded cfg terms dir log before active up
  rw [Log.roomFor, Log.active?, up_active cfg terms dir log before active up, Option.all_some, loaded.index] at room
  intro notFull
  rcases Bool.or_eq_true_iff.mp room with full | few
  · exact absurd (of_decide_eq_true full) notFull
  · have count := of_decide_eq_true few
    rwa [Index.currentOffset, Nat.mul_div_cancel_left _ (by decide)] at count

theorem stands_start (data : List Bytes) (stands : Stands cfg terms dir none data) (log : Log)
    (opened : (Log.new cfg dir).2 = .ok log) : Stands cfg terms (dir.applyAll (Log.new cfg dir).1) (some log) data := by
  cases stands with
  | down before active down =>
      obtain ⟨pairs, pair, rfl, rfl, up⟩ := log_new_up cfg terms dir before active down log opened
      rw [← extents_of_snoc]
      exact .up log pairs pair up

theorem stands_read (log : Log) (data : List Bytes) (stands : Stands cfg terms dir (some log) data)
    (off : Nat) (buf : Bytes) : Stands cfg terms (dir.applyAll (log.read dir off buf).2.1) (some (log.read dir off buf).1) data := by
  cases stands with
  | up _ before active up =>
      obtain ⟨later, last, after, same⟩ := log_read_up cfg terms dir log before active up off buf
      rw [← same]
      exact .up _ later last after

theorem stands_close (log : Log) (data : List Bytes) (stands : Stands cfg terms dir (some log) data) :
    Stands cfg terms (dir.applyAll log.close.2.1) none data := by
  cases stands with
  | up _ before active up =>
      rw [extents_of_snoc]
      exact .down _ _ (log_close_down cfg terms dir log before active up).1

theorem stands_crash (log : Log) (data : List Bytes) (stands : Stands cfg terms dir (some log) data)
    (safe : cfg.syncWrites = true ∨
      terms.whole = false ∧ log.active?.all (fun active => active.store.buffer.isEmpty) = true) :
    Stands cfg terms dir none data := by
  cases stands with
  | up _ before active up =>
      have settled : active.2.store.buffer = [] := by
        rcases safe with synced | ⟨_, empty⟩
        · exact (up_active_loaded cfg terms dir log before active up).synced synced
        · rw [Log.active?, up_active cfg terms dir log before active up] at empty
          exact List.isEmpty_iff.mp empty
      have down := log_crash_down cfg terms dir log before active up ?_ settled
      · have same : dataOf (extentsOf before active) = dataOf (crashedExtents before ++ [active.1]) := by
          have parts : crashedExtents before ++ [active.1] = crashedExtents (before ++ [active]) := by
            simp [crashedExtents, Extent.crashed, settled]
          rw [parts, data_of_crashed, extentsOf]
        rw [same]
        exact .down _ _ down
      · intro whole pair member
        rcases safe with synced | ⟨partly, _⟩
        · exact (up.loaded pair member).synced synced
        · rw [partly] at whole
          cases whole

-- Dropped without being closed, the log keeps the indexes as long as they were mapped.
theorem stands_drop (log : Log) (data : List Bytes) (stands : Stands cfg terms dir (some log) data) :
    Stands cfg terms (dir.applyAll log.dropWrites) none data := by
  cases stands with
  | up _ before active up =>
      rw [extents_of_snoc]
      exact .down _ _ (log_drop_down cfg terms dir log before active up)

theorem log_append_overflow (log : Log) (before : List (Extent × Segment)) (active : Extent × Segment) (record : Bytes)
    (up : Up cfg terms dir log before active) (room : ¬ Full cfg active.1) (most : ¬ active.1.next < u64Max) :
    (log.append cfg dir record).2.2 = .error (.panic "attempt to add with overflow") := by
  have failed := segment_append_overflow cfg terms dir active.1 active.2 record
    (up_active_loaded cfg terms dir log before active up) most (Nat.le_of_not_lt room)
  rw [Log.append, up_active cfg terms dir log before active up]
  cases appended : active.2.append cfg record with
  | mk segment outcome =>
      obtain ⟨writes, result⟩ := outcome
      rw [appended] at failed
      cases failed
      simp only [appended]

-- An append adds one record at the next offset, or is refused.
theorem stands_append (log : Log) (data : List Bytes) (stands : Stands cfg terms dir (some log) data) (record : Bytes)
    (fits : log.fits record = true) (room : log.roomFor terms.limit = true)
    (alive : ∀ message, (log.append cfg dir record).2.2 ≠ .error (.panic message)) :
    ((log.append cfg dir record).2.2 = .ok (cfg.initalOffset + data.length) ∧
        Stands cfg terms (dir.applyAll (log.append cfg dir record).2.1) (some (log.append cfg dir record).1)
          (data ++ [record])) ∨
      (log.append cfg dir record).2.2 = .error (.io .unexpectedEof "index is full") ∧
        Stands cfg terms (dir.applyAll (log.append cfg dir record).2.1) (some (log.append cfg dir record).1) data := by
  cases stands with
  | up _ before active up =>
      have few := up_room cfg terms dir terms.limit log before active up room
      have offsets : ¬ Full cfg active.1 → active.1.next < u64Max := by
        intro notFull
        by_contra most
        exact alive _ (log_append_overflow cfg terms dir log before active record up notFull most)
      obtain ⟨later, last, step, after⟩ := append_up cfg terms dir log before active record up
        (up_fits cfg terms dir log before active record up fits) fun notFull => ⟨few notFull, offsets notFull⟩
      have next := stands_next cfg terms dir log before active up
      cases same : log.append cfg dir record with
      | mk opened outcome =>
          rw [same] at step after
          have stands := Stands.up opened later last after
          rw [extents_of_snoc] at stands next ⊢
          cases step with
          | full => exact .inr ⟨rfl, stands⟩
          | kept =>
              rw [data_of_add] at stands
              exact .inl ⟨congrArg _ next, stands⟩
          | rotates =>
              rw [data_of_following, List.map_append, List.map_singleton, data_of_add] at stands
              exact .inl ⟨congrArg _ next, stands⟩

-- With offsets left an append does not unwind.
theorem append_alive (log : Log) (data : List Bytes) (stands : Stands cfg terms dir (some log) data) (record : Bytes)
    (fits : log.fits record = true) (room : log.roomFor terms.limit = true) (offsets : cfg.initalOffset + data.length < u64Max)
    (message : String) : (log.append cfg dir record).2.2 ≠ .error (.panic message) := by
  cases stands with
  | up _ before active up =>
      rw [← stands_next cfg terms dir log before active up] at offsets
      obtain ⟨_, _, step, _⟩ := append_up cfg terms dir log before active record up
        (up_fits cfg terms dir log before active record up fits)
        fun notFull => ⟨up_room cfg terms dir terms.limit log before active up room notFull, offsets⟩
      cases same : log.append cfg dir record with
      | mk opened outcome =>
          rw [same] at step
          intro unwound
          cases step with
          | full | kept | rotates => cases unwound

-- A process that dies inside an append leaves the log as it was or with the record.
theorem stands_cut (log : Log) (data : List Bytes) (stands : Stands cfg terms dir (some log) data) (record : Bytes)
    (fits : log.fits record = true) (room : log.roomFor terms.limit = true)
    (synced : cfg.syncWrites = true) (offsets : cfg.initalOffset + data.length < u64Max) (count : Nat)
    (safe : ∀ write, (log.append cfg dir record).2.1[count]? = some write → write.torn = false) :
    Stands cfg terms (dir.applyAll ((log.append cfg dir record).2.1.take count)) none data ∨
      Stands cfg terms (dir.applyAll ((log.append cfg dir record).2.1.take count)) none (data ++ [record]) := by
  cases stands with
  | up _ before active up =>
      have bound := up_fits cfg terms dir log before active record up fits
      have few := up_room cfg terms dir terms.limit log before active up room
      rw [← stands_next cfg terms dir log before active up] at offsets
      obtain ⟨_, _, step, _⟩ := append_up cfg terms dir log before active record up bound
        fun notFull => ⟨few notFull, offsets⟩
      rw [extents_of_snoc]
      cases same : log.append cfg dir record with
      | mk opened outcome =>
          rw [same] at step safe
          cases step with
          | full => exact .inl (.down _ _ (storing_down cfg terms dir log before active up synced record bound count))
          | kept notFull =>
              rcases adding_down cfg terms dir log before active up synced record bound notFull (few notFull) offsets count
                safe with old | new
              · exact .inl (.down _ _ old)
              · rw [← data_of_add]
                exact .inr (.down _ _ new)
          | rotates notFull =>
              by_cases adding : count < (addWrites cfg active record).length
              · dsimp only at safe ⊢
                rw [List.getElem?_append_left adding] at safe
                rw [List.take_append_of_le_length adding.le]
                rcases adding_down cfg terms dir log before active up synced record bound notFull (few notFull) offsets count
                  safe with old | new
                · exact .inl (.down _ _ old)
                · rw [← data_of_add]
                  exact .inr (.down _ _ new)
              · obtain ⟨later, rfl⟩ := Nat.exists_eq_add_of_le (Nat.le_of_not_lt adding)
                right
                have added := added_up cfg terms dir log before active record up bound notFull (few notFull) offsets
                dsimp only at safe ⊢
                rw [List.getElem?_append_right (Nat.le_add_right _ _), Nat.add_sub_cancel_left] at safe
                rw [List.take_length_add_append, apply_all_append, ← data_of_add]
                have rotating := rotating_down cfg terms _ _ before _ added synced (by simp [Extent.add]) later
                rw [add_next] at rotating
                rcases rotating safe with old | new
                · exact .down _ _ old
                · have stands := Stands.down _ _ new
                  rw [data_of_following, List.map_append, List.map_singleton] at stands
                  exact stands

def Opens (cfg : Config) (dir : Dir) : Prop := ∃ log, (Log.new cfg dir).2 = .ok log

theorem close_opens (log : Log) (data : List Bytes) (stands : Stands cfg terms dir (some log) data)
    (narrow : terms.limit < 2 ^ 32) : Opens cfg (dir.applyAll log.close.2.1) := by
  cases stands with
  | up _ before active up =>
      obtain ⟨down, tidy⟩ := log_close_down cfg terms dir log before active up
      apply log_new_opens cfg terms _ _ _ down
      intro extent member
      exact .inr ⟨tidy extent member, (down.held extent member).few.trans_lt narrow⟩

-- How many entries every index can be given and still be counted after a crash.
def recoverableLimit (cfg : Config) : Nat :=
  if cfg.maxSizeBytes < entireWidth * 2 ^ 32 then 2 ^ 32 - 1 else 2 ^ 32 - 2

theorem recoverable_of_limit (count : Nat) (few : count ≤ recoverableLimit cfg) : Recoverable count cfg.maxSizeBytes := by
  rw [recoverableLimit] at few
  unfold Recoverable
  unfold entireWidth offWidth positionWidth at few ⊢
  split at few
  · omega
  · omega

theorem stands_opens (data : List Bytes) (stands : Stands cfg terms dir none data)
    (few : terms.limit ≤ recoverableLimit cfg) : Opens cfg dir := by
  cases stands with
  | down before active down =>
      apply log_new_opens cfg terms _ _ _ down
      intro extent member
      exact .inl (recoverable_of_limit cfg _ ((down.held extent member).few.trans few))

-- Nothing has been created yet.
theorem empty_down : Down cfg terms emptyDir [] ⟨cfg.initalOffset, [], []⟩ := by
  have held : Held cfg terms emptyDir [] ⟨cfg.initalOffset, [], []⟩ := fresh_held cfg terms emptyDir _ rfl rfl
  refine ⟨⟨⟨rfl, trivial⟩, by simp, rfl⟩, by simpa using held, .inr ⟨?_, rfl, rfl⟩⟩
  intro base present
  rcases present with store | index
  · cases store
  · cases index

theorem empty_stands : Stands cfg terms emptyDir none [] := .down [] ⟨cfg.initalOffset, [], []⟩ (empty_down cfg terms)

end Steps

end RaftLog.SegmentLog
