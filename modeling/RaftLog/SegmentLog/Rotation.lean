import RaftLog.SegmentLog.Operations

set_option autoImplicit false

namespace RaftLog.SegmentLog

open Lib

-- The records, cut behind each with which the bytes of a piece reach the limit.
def pieces (limit : Nat) : Nat → List Bytes → List (List Bytes)
  | _, [] => []
  | stored, record :: rest =>
      let grown := stored + (frame lengthWidth record).length
      if grown ≥ limit then [record] :: pieces limit 0 rest
      else
        match pieces limit grown rest with
        | [] => [[record]]
        | piece :: more => (record :: piece) :: more

-- The first piece goes behind the records that a segment has.
def Roomy (most count : Nat) : List (List Bytes) → Prop
  | [] => True
  | piece :: more => count + piece.length ≤ most ∧ ∀ later ∈ more, later.length ≤ most

theorem roomy_fresh (most : Nat) (cut : List (List Bytes)) : Roomy most 0 cut ↔ ∀ piece ∈ cut, piece.length ≤ most := by
  cases cut with
  | nil => simp [Roomy]
  | cons piece more => simp [Roomy]

theorem roomy_cons (most count limit stored : Nat) (record : Bytes) (rest : List Bytes) :
    Roomy most count (pieces limit stored (record :: rest)) ↔
      count + 1 ≤ most ∧
        if stored + (frame lengthWidth record).length ≥ limit then Roomy most 0 (pieces limit 0 rest)
        else Roomy most (count + 1) (pieces limit (stored + (frame lengthWidth record).length) rest) := by
  rw [pieces]
  split
  · rw [roomy_fresh]
    exact Iff.rfl
  · cases pieces limit (stored + (frame lengthWidth record).length) rest with
    | nil => simp [Roomy]
    | cons piece more =>
        simp only [Roomy, List.length_cons]
        constructor
        · rintro ⟨here, later⟩
          exact ⟨by omega, by omega, later⟩
        · rintro ⟨_, here, later⟩
          exact ⟨by omega, later⟩

-- Every append up to the first that fails, if one does.
def acceptsAll (cfg : Config) : Dir → Log → List Bytes → Bool
  | _, _, [] => true
  | dir, log, record :: rest =>
      match log.append cfg dir record with
      | (next, writes, .ok _) => acceptsAll cfg (dir.applyAll writes) next rest
      | (_, _, .error _) => false

-- The log writes to its last segment, and later offsets name no file yet.
structure Rotating (cfg : Config) (dir : Dir) (log : Log) (active : Segment) (count : Nat) : Prop where
  here : log.segments[log.activeIndex]? = some active
  last : log.activeIndex + 1 = log.segments.length
  index : active.index = ⟨entireWidth * count, cfg.maxSizeBytes⟩
  base : active.baseOffset ≤ active.nextOffset
  listed : ∀ base, dir.has base → base ≤ active.nextOffset

theorem segment_new_fresh (cfg : Config) (dir : Dir) (base : Nat) (absent : ¬ dir.has base) :
    (Segment.new cfg dir base).2 = .ok ⟨base, base, ⟨0, []⟩, ⟨0, cfg.maxSizeBytes⟩⟩ := by
  obtain ⟨store, index⟩ := absent_files dir base absent
  simp [Segment.new, Index.new, Store.new, store, index, bind, Except.bind, pure, Except.pure]

section Append

variable (cfg : Config) (dir : Dir) (log : Log) (active : Segment) (count : Nat) (record : Bytes)
  (rotating : Rotating cfg dir log active count)

theorem stored_size : (active.store.append cfg.syncWrites record).1.size =
    active.store.size + (frame lengthWidth record).length := by
  have sum : record.length + lengthWidth = (frame lengthWidth record).length := by simp [frame, Nat.add_comm]
  rw [← sum]
  unfold Store.append
  dsimp only
  split
  · rfl
  · rfl

include rotating

theorem append_refused (refuses : cfg.maxSizeBytes < entireWidth * count + entireWidth ∨ u64Max ≤ active.nextOffset) :
    ∃ failure, (log.append cfg dir record).2.2 = .error failure := by
  have failed : ∃ failure, (active.append cfg record).2.2 = .error failure := by
    unfold Segment.append Index.write
    rw [rotating.index]
    dsimp only
    split
    · exact ⟨_, rfl⟩
    · rename_i same
      split at same
      · cases same
      · cases same
        rw [checkedAdd, if_neg (by omega)]
        exact ⟨_, rfl⟩
  obtain ⟨failure, failed⟩ := failed
  refine ⟨failure, ?_⟩
  rw [Log.append, rotating.here]
  cases same : active.append cfg record with
  | mk segment outcome =>
      obtain ⟨writes, result⟩ := outcome
      rw [same] at failed
      cases failed
      simp only [same]

omit rotating in
theorem segment_append_accepted (room : active.index.size + entireWidth ≤ active.index.mapped)
    (offsets : active.nextOffset < u64Max) :
    ∃ writes, active.append cfg record = (active.added cfg record, writes, .ok active.nextOffset) ∧
      ∀ write ∈ writes, write.base = active.baseOffset := by
  have sum : checkedAdd u64Max active.nextOffset 1 = .ok (active.nextOffset + 1) := if_pos offsets
  refine ⟨storeWrites active.baseOffset (active.chunks cfg record) ++
    copies active.baseOffset (active.relative active.nextOffset) active.index.size active.store.size, ?_, ?_⟩
  · rw [Segment.append, Index.write, if_neg (Nat.not_lt.mpr room)]
    simp only [sum]
    rfl
  · intro write member
    rcases List.mem_append.mp member with stored | copied
    · exact store_writes_base _ _ write stored
    · rcases List.mem_pair.mp copied with rfl | rfl
      · rfl
      · rfl

theorem append_accepted (room : entireWidth * count + entireWidth ≤ cfg.maxSizeBytes) (offsets : active.nextOffset < u64Max) :
    ∃ next writes segment, log.append cfg dir record = (next, writes, .ok active.nextOffset) ∧
      segment.nextOffset = active.nextOffset + 1 ∧
      if entireWidth * (count + 1) ≥ cfg.maxSizeBytes ∨
          active.store.size + (frame lengthWidth record).length ≥ cfg.maxStoreBytes then
        Rotating cfg (dir.applyAll writes) next segment 0 ∧ segment.store.size = 0
      else Rotating cfg (dir.applyAll writes) next segment (count + 1) ∧
        segment.store.size = active.store.size + (frame lengthWidth record).length := by
  obtain ⟨writes, accepted, own⟩ := segment_append_accepted cfg active record (by rw [rotating.index]; exact room) offsets
  have slots : (active.added cfg record).index = ⟨entireWidth * (count + 1), cfg.maxSizeBytes⟩ := by
    rw [Segment.added, rotating.index, Nat.mul_succ]
  have size := stored_size cfg active record
  have maxed : (active.added cfg record).isMaxed cfg = true ↔ entireWidth * (count + 1) ≥ cfg.maxSizeBytes ∨
      active.store.size + (frame lengthWidth record).length ≥ cfg.maxStoreBytes := by
    rw [Segment.isMaxed, slots, Bool.or_eq_true, decide_eq_true_eq, decide_eq_true_eq, ← size]
    exact Iff.rfl
  have listed : ∀ base, (dir.applyAll writes).has base → base ≤ active.nextOffset := by
    intro base present
    rcases (apply_all_has base writes dir).mp present with before | ⟨write, member, rfl⟩
    · exact rotating.listed base before
    · rw [own write member]
      exact rotating.base
  have bound := (List.getElem?_eq_some_iff.mp rotating.here).1
  rw [Log.append, rotating.here]
  simp only [accepted]
  split
  · rename_i full
    have fresh := segment_new_fresh cfg (dir.applyAll writes) (active.nextOffset + 1)
      fun present => absurd (listed _ present) (Nat.not_succ_le_self _)
    cases new : Segment.new cfg (dir.applyAll writes) (active.nextOffset + 1) with
    | mk more result =>
        rw [new] at fresh
        cases fresh
        refine ⟨_, _, ⟨active.nextOffset + 1, active.nextOffset + 1, ⟨0, []⟩, ⟨0, cfg.maxSizeBytes⟩⟩, rfl, rfl, ?_⟩
        rw [if_pos (maxed.mp full)]
        refine ⟨⟨?_, ?_, rfl, le_rfl, ?_⟩, rfl⟩
        · have last : log.activeIndex + 1 = (log.segments.set log.activeIndex (active.added cfg record)).length := by
            rw [List.length_set, rotating.last]
          dsimp only
          rw [last, List.getElem?_concat_length]
        · dsimp only
          rw [List.length_append, List.length_set, ← rotating.last]
          rfl
        · intro base present
          have same := segment_new_has cfg (dir.applyAll writes) (active.nextOffset + 1) base
          rw [new] at same
          rw [apply_all_append] at present
          rcases same.mp present with before | rfl
          · exact (listed base before).trans (Nat.le_succ _)
          · exact le_rfl
  · rename_i free
    refine ⟨_, _, active.added cfg record, rfl, rfl, ?_⟩
    rw [if_neg fun full => free (maxed.mpr full)]
    refine ⟨⟨?_, ?_, slots, ?_, ?_⟩, size⟩
    · dsimp only
      rw [List.getElem?_set_self bound]
    · dsimp only
      rw [List.length_set, rotating.last]
    · exact rotating.base.trans (Nat.le_succ _)
    · intro base present
      exact (listed base present).trans (Nat.le_succ _)

omit rotating in
theorem slot_counts : entireWidth * count + entireWidth ≤ cfg.maxSizeBytes ↔ count + 1 ≤ cfg.maxSizeBytes / entireWidth := by
  rw [Nat.le_div_iff_mul_le (by decide), Nat.mul_comm, Nat.succ_mul]

omit rotating in
theorem slot_left (divides : entireWidth ∣ cfg.maxSizeBytes) (free : entireWidth * count < cfg.maxSizeBytes) :
    entireWidth * count + entireWidth ≤ cfg.maxSizeBytes := by
  obtain ⟨slots, same⟩ := divides
  rw [same] at free ⊢
  exact Nat.mul_le_mul_left entireWidth (Nat.lt_of_mul_lt_mul_left free)

theorem accepts_refused (rest : List Bytes)
    (refuses : cfg.maxSizeBytes < entireWidth * count + entireWidth ∨ u64Max ≤ active.nextOffset) :
    acceptsAll cfg dir log (record :: rest) = false := by
  obtain ⟨failure, refused⟩ := append_refused cfg dir log active count record rotating refuses
  rw [acceptsAll]
  cases same : log.append cfg dir record with
  | mk next outcome =>
      obtain ⟨writes, result⟩ := outcome
      rw [same] at refused
      cases refused
      rfl

end Append

-- With a limit that is no multiple of a slot, only the store's limit ends a segment.
theorem accepts_iff (cfg : Config) (least : entireWidth ≤ cfg.maxSizeBytes) (records : List Bytes) (dir : Dir) (log : Log)
    (active : Segment) (count : Nat) (rotating : Rotating cfg dir log active count)
    (free : entireWidth ∣ cfg.maxSizeBytes → entireWidth * count < cfg.maxSizeBytes)
    (typed : active.nextOffset ≤ u64Max) :
    acceptsAll cfg dir log records = true ↔ active.nextOffset + records.length ≤ u64Max ∧
      (entireWidth ∣ cfg.maxSizeBytes ∨
        Roomy (cfg.maxSizeBytes / entireWidth) count (pieces cfg.maxStoreBytes active.store.size records)) := by
  induction records generalizing dir log active count with
  | nil => simp [acceptsAll, pieces, Roomy, typed]
  | cons record rest ih =>
      by_cases room : entireWidth * count + entireWidth ≤ cfg.maxSizeBytes
      case neg =>
        rw [accepts_refused cfg dir log active count record rotating rest (.inl (Nat.lt_of_not_le room)), roomy_cons]
        apply iff_of_false Bool.false_ne_true
        rintro ⟨_, divides | ⟨slot, _⟩⟩
        · exact room (slot_left cfg count divides (free divides))
        · exact room ((slot_counts cfg count).mpr slot)
      by_cases offsets : active.nextOffset < u64Max
      case neg =>
        rw [accepts_refused cfg dir log active count record rotating rest (.inr (Nat.le_of_not_lt offsets))]
        apply iff_of_false Bool.false_ne_true
        rintro ⟨most, _⟩
        rw [List.length_cons] at most
        omega
      obtain ⟨next, writes, segment, accepted, after, rotates⟩ :=
        append_accepted cfg dir log active count record rotating room offsets
      have typed : segment.nextOffset ≤ u64Max := by omega
      have slot := (slot_counts cfg count).mp room
      have most : segment.nextOffset + rest.length = active.nextOffset + (record :: rest).length := by
        rw [after, List.length_cons, Nat.add_right_comm, Nat.add_assoc]
      rw [acceptsAll, accepted]
      dsimp only
      rw [roomy_cons, and_iff_right slot, ← most]
      by_cases divides : entireWidth ∣ cfg.maxSizeBytes
      · split at rotates
        · rw [ih _ next segment 0 rotates.1 (fun _ => Nat.lt_of_lt_of_le (by decide) least) typed]
          simp [divides]
        · rename_i free
          rw [ih _ next segment (count + 1) rotates.1 (fun _ => Nat.lt_of_not_le fun full => free (.inl full)) typed]
          simp [divides]
      · have partly : ¬ entireWidth * (count + 1) ≥ cfg.maxSizeBytes :=
          fun full => divides ⟨count + 1, Nat.le_antisymm full room⟩
        simp only [or_iff_right partly] at rotates
        split at rotates
        · rename_i reached
          rw [ih _ next segment 0 rotates.1 (fun whole => absurd whole divides) typed, rotates.2, if_pos reached]
        · rename_i below
          rw [ih _ next segment (count + 1) rotates.1 (fun whole => absurd whole divides) typed, rotates.2, if_neg below]

def AcceptsAll (cfg : Config) (records : List Bytes) : Prop := ∃ log, (Log.new cfg emptyDir).2 = .ok log ∧
  acceptsAll cfg (emptyDir.applyAll (Log.new cfg emptyDir).1) log records = true

theorem accepts_all_iff (cfg : Config) (least : entireWidth ≤ cfg.maxSizeBytes) (typed : cfg.initalOffset ≤ u64Max)
    (records : List Bytes) : AcceptsAll cfg records ↔ cfg.initalOffset + records.length ≤ u64Max ∧
      (entireWidth ∣ cfg.maxSizeBytes ∨
        ∀ piece ∈ pieces cfg.maxStoreBytes 0 records, piece.length ≤ cfg.maxSizeBytes / entireWidth) := by
  have absent : ∀ base, ¬ emptyDir.has base := by
    intro base present
    rcases present with store | index
    · cases store
    · cases index
  have fresh := segment_new_fresh cfg emptyDir cfg.initalOffset (absent _)
  have created := segment_new_has cfg emptyDir cfg.initalOffset
  have none : emptyDir.bases = [] := by decide
  cases new : Segment.new cfg emptyDir cfg.initalOffset with
  | mk writes result =>
      rw [new] at fresh created
      cases fresh
      have opened : Log.new cfg emptyDir =
          (writes ++ [], .ok ⟨0, [⟨cfg.initalOffset, cfg.initalOffset, ⟨0, []⟩, ⟨0, cfg.maxSizeBytes⟩⟩]⟩) := by
        rw [Log.new, if_pos none, openSegments]
        simp only [new]
        rfl
      have rotating : Rotating cfg (emptyDir.applyAll (writes ++ []))
          ⟨0, [⟨cfg.initalOffset, cfg.initalOffset, ⟨0, []⟩, ⟨0, cfg.maxSizeBytes⟩⟩]⟩
          ⟨cfg.initalOffset, cfg.initalOffset, ⟨0, []⟩, ⟨0, cfg.maxSizeBytes⟩⟩ 0 := by
        refine ⟨rfl, rfl, rfl, le_rfl, ?_⟩
        intro base present
        rw [List.append_nil] at present
        rcases (created base).mp present with before | rfl
        · exact absurd before (absent base)
        · exact le_rfl
      have accepts := accepts_iff cfg least records _ _ _ 0 rotating (fun _ => Nat.lt_of_lt_of_le (by decide) least) typed
      rw [roomy_fresh] at accepts
      rw [AcceptsAll, opened, ← accepts]
      simp

-- Two slots do not fill 30 bytes, but no third one fits.
theorem accepts_until_store_full :
    AcceptsAll ⟨1, false, 30, 18⟩ [[1], [2, 3], [4], [5], [6, 7, 8]] :=
  (accepts_all_iff ⟨1, false, 30, 18⟩ (by decide) (by decide) _).mpr (by decide)

theorem index_full_before_rotation : ¬ ∀ (cfg : Config) (records : List Bytes),
    entireWidth ≤ cfg.maxSizeBytes → cfg.initalOffset ≤ u64Max → cfg.initalOffset + records.length ≤ u64Max →
      AcceptsAll cfg records := by
  intro always
  obtain ⟨log, opened, accepted⟩ := always ⟨1, false, 20, 1024⟩ [[1], [2]] (by decide) (by decide) (by decide)
  have refused : (Log.new ⟨1, false, 20, 1024⟩ emptyDir).2.map (fun log =>
      acceptsAll ⟨1, false, 20, 1024⟩ (emptyDir.applyAll (Log.new ⟨1, false, 20, 1024⟩ emptyDir).1) log [[1], [2]]) =
        .ok false := by decide +kernel
  rw [opened] at refused
  cases accepted.symm.trans (Except.ok.inj refused)

end RaftLog.SegmentLog
