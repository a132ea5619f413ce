import RaftLog.SegmentLog.Model

set_option autoImplicit false

namespace RaftLog.SegmentLog

open Lib

def slotBytes (number position : Nat) : Bytes := toBytes offWidth number ++ toBytes positionWidth position

theorem length_slot_bytes (number position : Nat) : (slotBytes number position).length = entireWidth := by
  simp [slotBytes, entireWidth]

-- Unwritten slots are filled with 0xFF; set_len leaves zeros behind a closed index, which
-- only an index with entries is opened with.
def Padding (count : Nat) (padding : Bytes) : Prop :=
  padding = List.replicate padding.length 0xFF ∨ count ≠ 0 ∧ padding = List.replicate padding.length 0

def Indexed (content : Bytes) (positions : List Nat) : Prop :=
  ∃ padding, content = slots slotBytes 0 positions ++ padding ∧ Padding positions.length padding

theorem indexed_nil : Indexed [] [] := ⟨[], rfl, .inl rfl⟩

theorem indexed_length (content : Bytes) (positions : List Nat) (indexed : Indexed content positions) :
    entireWidth * positions.length ≤ content.length := by
  obtain ⟨padding, rfl, _⟩ := indexed
  rw [List.length_append, length_slots slotBytes entireWidth length_slot_bytes]
  exact Nat.le_add_right _ _

section Slots

variable (content : Bytes) (positions : List Nat) (indexed : Indexed content positions) (number position : Nat)
  (found : positions[number]? = some position)

include indexed found

theorem slot_within : entireWidth * number + entireWidth ≤ content.length := by
  have bound := (List.getElem?_eq_some_iff.mp found).1
  exact (Nat.mul_le_mul_left entireWidth bound).trans (indexed_length content positions indexed)

theorem slot_number : slice content (entireWidth * number) offWidth = toBytes offWidth number := by
  obtain ⟨padding, rfl, _⟩ := indexed
  obtain ⟨before, after, same, length⟩ := slot_split slotBytes entireWidth length_slot_bytes positions padding number position found
  rw [same, slotBytes, List.append_assoc]
  exact slice_middle before _ _ _ _ length.symm (length_to_bytes _ _).symm

theorem slot_position : slice content (entireWidth * number + offWidth) positionWidth = toBytes positionWidth position := by
  obtain ⟨padding, rfl, _⟩ := indexed
  obtain ⟨before, after, same, length⟩ := slot_split slotBytes entireWidth length_slot_bytes positions padding number position found
  rw [same, slotBytes, List.append_assoc, ← List.append_assoc]
  apply slice_middle
  · rw [List.length_append, length, length_to_bytes]
  · exact (length_to_bytes _ _).symm

end Slots

theorem index_read (index : Index) (content : Bytes) (positions : List Nat) (indexed : Indexed content positions)
    (size : index.size = entireWidth * positions.length) (mapped : index.mapped = content.length) (number position : Nat)
    (found : positions[number]? = some position) (small : position < 2 ^ 64) :
    ∃ off, index.read content number = .ok (off, position) := by
  have bound := (List.getElem?_eq_some_iff.mp found).1
  have within := slot_within content positions indexed number position found
  have below : entireWidth * number + entireWidth ≤ index.size := by
    rw [size]
    exact Nat.mul_le_mul_left entireWidth bound
  refine ⟨ofBytes (slice content (entireWidth * number) offWidth), ?_⟩
  rw [Index.read, Nat.mul_comm number, if_neg (Nat.not_lt.mpr below), if_neg (Nat.not_lt.mpr (mapped ▸ within)),
    slot_position content positions indexed number position found, of_to_bytes positionWidth position small]

theorem counter_overflows : checkedAdd u32Max u32Max 1 = .error (.panic "attempt to add with overflow") :=
  if_neg (Nat.not_succ_le_self u32Max)

section Recover

variable (content : Bytes) (positions : List Nat) (indexed : Indexed content positions)

include indexed

theorem recover_slot (fuel number position : Nat) (found : positions[number]? = some position) (small : number < 2 ^ 32) :
    recoverFrom content (entireWidth * number) number (fuel + 1) =
      (checkedAdd u32Max number 1).bind fun next => recoverFrom content (entireWidth * number + entireWidth) next fuel := by
  have same : ofBytes (slice content (entireWidth * number) offWidth) = number := by
    rw [slot_number content positions indexed number position found]
    exact of_to_bytes offWidth number small
  rw [recoverFrom, if_pos (slot_within content positions indexed number position found), if_neg (not_not.mpr same)]
  rfl

theorem recover_slots (count fuel : Nat) (written : count ≤ positions.length) (small : count < 2 ^ 32) :
    recoverFrom content 0 0 (count + fuel) = recoverFrom content (entireWidth * count) count fuel := by
  induction count generalizing fuel with
  | zero => rw [Nat.zero_add, Nat.mul_zero]
  | succ count ih =>
      have found : positions[count]? = some positions[count] := List.getElem?_eq_getElem written
      rw [Nat.add_right_comm, Nat.add_assoc, ih (fuel + 1) (Nat.le_of_succ_le written) (Nat.lt_of_succ_lt small),
        recover_slot content positions indexed fuel count _ found (Nat.lt_of_succ_lt small)]
      have sum : checkedAdd u32Max count 1 = .ok (count + 1) := if_pos (Nat.le_pred_of_lt small)
      rw [sum, Nat.mul_succ]
      rfl

theorem padding_number (room : entireWidth * positions.length + entireWidth ≤ content.length) :
    ofBytes (slice content (entireWidth * positions.length) offWidth) = u32Max ∨
      positions.length ≠ 0 ∧ ofBytes (slice content (entireWidth * positions.length) offWidth) = 0 := by
  obtain ⟨padding, rfl, filled⟩ := indexed
  have length := length_slots slotBytes entireWidth length_slot_bytes 0 positions
  have long : offWidth ≤ padding.length := by
    rw [List.length_append, length] at room
    exact (Nat.le_add_right offWidth positionWidth).trans (Nat.le_of_add_le_add_left room)
  have field : slice (slots slotBytes 0 positions ++ padding) (entireWidth * positions.length) offWidth = padding.take offWidth := by
    rw [← List.take_append_drop offWidth padding]
    rw [slice_middle _ _ _ _ _ length.symm (by rw [List.length_take, Nat.min_eq_left long])]
    rw [List.take_append_drop]
  rw [field]
  rcases filled with ones | ⟨some, zeros⟩
  · left
    rw [ones, List.take_replicate, Nat.min_eq_left long]
    rfl
  · refine .inr ⟨some, ?_⟩
    rw [zeros, List.take_replicate, Nat.min_eq_left long]
    rfl

-- Behind the last entry the loop meets the end of the file or padding. Only 0xFF behind
-- 2^32 - 1 entries looks like the next one.
theorem recover_end (fuel : Nat)
    (stops : positions.length + 1 < 2 ^ 32 ∨ content.length < entireWidth * positions.length + entireWidth) :
    recoverFrom content (entireWidth * positions.length) positions.length fuel = .ok (entireWidth * positions.length) := by
  cases fuel with
  | zero => rfl
  | succ fuel =>
      rw [recoverFrom]
      by_cases room : entireWidth * positions.length + entireWidth ≤ content.length
      case neg => rw [if_neg room]
      rw [if_pos room, if_pos]
      have few : positions.length + 1 < 2 ^ 32 := stops.resolve_right (Nat.not_lt.mpr room)
      intro same
      rcases padding_number content positions indexed room with ones | ⟨some, zeros⟩
      · rw [same] at ones
        unfold u32Max at ones
        omega
      · exact some (same ▸ zeros)

-- How many entries recovery can count: u32 is the type of its counter, and 0xFF in all
-- four bytes is a number of that type.
def Recoverable (count length : Nat) : Prop :=
  count < 2 ^ 32 ∧ (count + 1 < 2 ^ 32 ∨ length < entireWidth * count + entireWidth)

theorem recover_size (recoverable : Recoverable positions.length content.length) :
    recoverSize content = .ok (entireWidth * positions.length) := by
  obtain ⟨small, stops⟩ := recoverable
  have length := indexed_length content positions indexed
  obtain ⟨fuel, enough⟩ : ∃ fuel, content.length = positions.length + fuel := by
    apply Nat.exists_eq_add_of_le
    unfold entireWidth offWidth positionWidth at length
    omega
  rw [recoverSize, enough, recover_slots content positions indexed positions.length fuel le_rfl small]
  exact recover_end content positions indexed fuel stops

-- With more entries the count overflows.
theorem recover_size_ok (size : Nat) (found : recoverSize content = .ok size) : size = entireWidth * positions.length := by
  have length := indexed_length content positions indexed
  unfold entireWidth offWidth positionWidth at length
  by_cases small : positions.length < 2 ^ 32
  · obtain ⟨fuel, enough⟩ : ∃ fuel, content.length = positions.length + fuel :=
      Nat.exists_eq_add_of_le (by omega)
    rw [recoverSize, enough, recover_slots content positions indexed positions.length fuel le_rfl small] at found
    by_cases stops : positions.length + 1 < 2 ^ 32 ∨ content.length < entireWidth * positions.length + entireWidth
    · rw [recover_end content positions indexed fuel stops] at found
      exact (Except.ok.inj found).symm
    cases fuel with
    | zero => exact (Except.ok.inj found).symm
    | succ fuel =>
        have last : positions.length = u32Max := by
          unfold u32Max
          omega
        rw [recoverFrom] at found
        split at found
        · split at found
          · exact (Except.ok.inj found).symm
          · rw [last, counter_overflows] at found
            cases found
        · exact (Except.ok.inj found).symm
  · have bound : u32Max < positions.length := by
      unfold u32Max
      omega
    obtain ⟨fuel, enough⟩ : ∃ fuel, content.length = u32Max + (fuel + 1) := by
      obtain ⟨rest, enough⟩ := Nat.exists_eq_add_of_le (show u32Max + 1 ≤ content.length by omega)
      exact ⟨rest, by rw [enough, Nat.add_assoc, Nat.add_comm 1]⟩
    rw [recoverSize, enough, recover_slots content positions indexed u32Max (fuel + 1) bound.le (by decide),
      recover_slot content positions indexed fuel u32Max _ (List.getElem?_eq_getElem bound) (by decide),
      counter_overflows] at found
    cases found

end Recover

-- The two copies of Index::write.
def copies (base number start position : Nat) : List Write :=
  [.copyOffset base start (toBytes offWidth number), .copyPosition base (start + offWidth) (toBytes positionWidth position)]

theorem index_room (index : Index) (base number position : Nat) (room : index.size + entireWidth ≤ index.mapped) :
    index.write base number position =
      .ok ({ index with size := index.size + entireWidth }, copies base number index.size position) :=
  if_neg (Nat.not_lt.mpr room)

theorem index_full (index : Index) (base number position : Nat) (full : index.mapped < index.size + entireWidth) :
    index.write base number position = .error (.io .unexpectedEof "index is full") := if_pos full

theorem padding_drop (count : Nat) (padding : Bytes) (width : Nat) (filled : Padding count padding) :
    Padding (count + 1) (padding.drop width) := by
  rcases filled with ones | ⟨_, zeros⟩
  · left
    rw [List.length_drop, ones, List.drop_replicate, List.length_replicate]
  · refine .inr ⟨Nat.succ_ne_zero count, ?_⟩
    rw [List.length_drop, zeros, List.drop_replicate, List.length_replicate]

theorem copies_index (dir : Dir) (base position : Nat) (positions : List Nat) (indexed : Indexed (dir.index base) positions)
    (room : entireWidth * positions.length + entireWidth ≤ (dir.index base).length) :
    let after := (dir.applyAll (copies base positions.length (entireWidth * positions.length) position)).index base
    Indexed after (positions ++ [position]) ∧ after.length = (dir.index base).length := by
  obtain ⟨padding, content, filled⟩ := indexed
  have length := length_slots slotBytes entireWidth length_slot_bytes 0 positions
  have long : entireWidth ≤ padding.length := by
    rw [content, List.length_append, length] at room
    omega
  have parts : padding = padding.take offWidth ++ ((padding.drop offWidth).take positionWidth ++ padding.drop entireWidth) := by
    rw [show entireWidth = offWidth + positionWidth from rfl, ← List.drop_drop, List.take_append_drop, List.take_append_drop]
  have widths : (padding.take offWidth).length = offWidth ∧ ((padding.drop offWidth).take positionWidth).length = positionWidth := by
    unfold entireWidth at long
    rw [List.length_take, List.length_take, List.length_drop]
    omega
  have first := overwrite_middle (slots slotBytes 0 positions) (padding.take offWidth)
    ((padding.drop offWidth).take positionWidth ++ padding.drop entireWidth) (toBytes offWidth positions.length)
    (entireWidth * positions.length) length.symm (by rw [length_to_bytes, widths.1])
  have second := overwrite_middle (slots slotBytes 0 positions ++ toBytes offWidth positions.length)
    ((padding.drop offWidth).take positionWidth) (padding.drop entireWidth) (toBytes positionWidth position)
    (entireWidth * positions.length + offWidth) (by rw [List.length_append, length, length_to_bytes])
    (by rw [length_to_bytes, widths.2])
  have written : (dir.applyAll (copies base positions.length (entireWidth * positions.length) position)).index base =
      slots slotBytes 0 (positions ++ [position]) ++ padding.drop entireWidth := by
    rw [← parts, ← content] at first
    rw [List.append_assoc, ← first] at second
    simp only [copies, apply_all_cons, apply_all_nil, Dir.apply, put_index_index]
    rw [second, slots_snoc, slotBytes]
    simp only [List.append_assoc]
  have grown := length_slots slotBytes entireWidth length_slot_bytes 0 (positions ++ [position])
  constructor
  · refine ⟨padding.drop entireWidth, written, ?_⟩
    rw [List.length_append]
    exact padding_drop positions.length padding entireWidth filled
  · rw [written, content, List.length_append, List.length_append, grown, length, List.length_drop, List.length_append,
      List.length_singleton, Nat.mul_succ]
    omega

section Open

variable (maxSizeBytes base : Nat) (dir : Dir) (positions : List Nat)

theorem no_slots (empty : (dir.index base).length = 0) (indexed : Indexed (dir.index base) positions) : positions = [] := by
  have length := indexed_length _ positions indexed
  apply List.eq_nil_of_length_eq_zero
  unfold entireWidth offWidth positionWidth at length
  omega

-- What Index::new makes of the file.
def openedIndex (maxSizeBytes : Nat) (content : Bytes) : Bytes :=
  if content.length = 0 then List.replicate maxSizeBytes 0xFF else resize content maxSizeBytes

theorem opened_index_content :
    (dir.applyAll (Index.new maxSizeBytes base (dir.index base)).1).index base = openedIndex maxSizeBytes (dir.index base) := by
  unfold Index.new openedIndex
  by_cases empty : (dir.index base).length = 0
  · simp [empty, Dir.apply]
  rw [if_neg empty, if_neg empty]
  by_cases full : (dir.index base).length = maxSizeBytes
  · rw [if_pos full]
    exact put_index_index dir base _
  · rw [if_neg full]
    exact put_index_index dir base _

theorem length_opened_index (content : Bytes) : (openedIndex maxSizeBytes content).length = maxSizeBytes := by
  unfold openedIndex
  split
  · exact List.length_replicate
  · exact length_resize content maxSizeBytes

theorem opened_index_indexed (indexed : Indexed (dir.index base) positions)
    (room : entireWidth * positions.length ≤ maxSizeBytes)
    (length : (dir.index base).length = entireWidth * positions.length ∨ (dir.index base).length = maxSizeBytes) :
    Indexed (openedIndex maxSizeBytes (dir.index base)) positions := by
  unfold openedIndex
  by_cases empty : (dir.index base).length = 0
  · rw [if_pos empty, no_slots base dir positions empty indexed]
    exact ⟨_, rfl, .inl (by rw [List.length_replicate])⟩
  rw [if_neg empty]
  rcases length with closed | mapped
  · obtain ⟨padding, content, _⟩ := indexed
    have bare : padding = [] := by
      apply List.eq_nil_of_length_eq_zero
      rw [content, List.length_append, length_slots slotBytes entireWidth length_slot_bytes] at closed
      omega
    rw [resize_longer _ _ (closed ▸ room)]
    refine ⟨List.replicate (maxSizeBytes - (dir.index base).length) 0, ?_, .inr ⟨?_, by rw [List.length_replicate]⟩⟩
    · rw [content, bare, List.append_nil]
    · intro none
      rw [none] at closed
      exact empty closed
  · rw [← mapped, resize_longer _ _ le_rfl, Nat.sub_self, List.replicate_zero, List.append_nil]
    exact indexed

-- Opening finds the entries, or panics when it cannot count them.
theorem index_opened (index : Index) (indexed : Indexed (dir.index base) positions)
    (length : (dir.index base).length = entireWidth * positions.length ∨ (dir.index base).length = maxSizeBytes)
    (opened : (Index.new maxSizeBytes base (dir.index base)).2 = .ok index) :
    index = ⟨entireWidth * positions.length, maxSizeBytes⟩ := by
  unfold Index.new at opened
  by_cases empty : (dir.index base).length = 0
  · rw [if_pos empty] at opened
    cases opened
    rw [no_slots base dir positions empty indexed]
    rfl
  rw [if_neg empty] at opened
  by_cases full : (dir.index base).length = maxSizeBytes
  · rw [if_pos full, ← full, resize_longer _ _ le_rfl, Nat.sub_self, List.replicate_zero, List.append_nil] at opened
    cases found : recoverSize (dir.index base) with
    | error failure =>
        rw [found] at opened
        cases opened
    | ok size =>
        rw [found] at opened
        cases opened
        rw [recover_size_ok _ positions indexed size found, full]
  · rw [if_neg full] at opened
    cases opened
    rw [length.resolve_right full]

theorem index_opens (indexed : Indexed (dir.index base) positions)
    (length : (dir.index base).length = entireWidth * positions.length ∨ (dir.index base).length = maxSizeBytes)
    (recoverable : Recoverable positions.length maxSizeBytes ∨
      (dir.index base).length = entireWidth * positions.length ∧ positions.length < 2 ^ 32) :
    (Index.new maxSizeBytes base (dir.index base)).2 = .ok ⟨entireWidth * positions.length, maxSizeBytes⟩ := by
  cases opened : (Index.new maxSizeBytes base (dir.index base)).2 with
  | ok index => rw [index_opened maxSizeBytes base dir positions index indexed length opened]
  | error failure =>
      unfold Index.new at opened
      by_cases empty : (dir.index base).length = 0
      · rw [if_pos empty] at opened
        cases opened
      rw [if_neg empty] at opened
      by_cases full : (dir.index base).length = maxSizeBytes
      · have countable : Recoverable positions.length (dir.index base).length := by
          rcases recoverable with mapped | ⟨closed, small⟩
          · rwa [full]
          · refine ⟨small, .inr ?_⟩
            rw [closed]
            exact Nat.lt_add_of_pos_right (by decide)
        rw [if_pos full, ← full, resize_longer _ _ le_rfl, Nat.sub_self, List.replicate_zero, List.append_nil,
          recover_size _ positions indexed countable] at opened
        cases opened
      · rw [if_neg full] at opened
        cases opened

end Open

end RaftLog.SegmentLog
