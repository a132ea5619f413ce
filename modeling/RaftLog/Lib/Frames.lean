import RaftLog.Lib.Bytes

set_option autoImplicit false

namespace RaftLog.Lib

section Frames

variable (width : Nat)

-- A record behind its own length.
def frame (record : Bytes) : Bytes := toBytes width record.length ++ record

@[simp] theorem length_frame (record : Bytes) : (frame width record).length = width + record.length := by
  simp [frame]

def Framed (stream : Bytes) (position : Nat) (record : Bytes) : Prop :=
  ∃ before after, stream = before ++ (frame width record ++ after) ∧ position = before.length

theorem framed_append (stream more : Bytes) (position : Nat) (record : Bytes) (framed : Framed width stream position record) :
    Framed width (stream ++ more) position record := by
  obtain ⟨before, after, rfl, rfl⟩ := framed
  exact ⟨before, after ++ more, by simp only [List.append_assoc], rfl⟩

theorem framed_end (stream record : Bytes) : Framed width (stream ++ frame width record) stream.length record :=
  ⟨stream, [], by rw [List.append_nil], rfl⟩

theorem framed_within (stream : Bytes) (position : Nat) (record : Bytes) (framed : Framed width stream position record) :
    position + width + record.length ≤ stream.length := by
  obtain ⟨before, after, rfl, rfl⟩ := framed
  simp only [List.length_append, length_frame]
  omega

theorem framed_iff (stream : Bytes) (position : Nat) (record : Bytes) :
    Framed width stream position record ↔ position ≤ stream.length ∧ frame width record <+: stream.drop position := by
  constructor
  · rintro ⟨before, after, rfl, rfl⟩
    refine ⟨by rw [List.length_append]; omega, after, ?_⟩
    rw [List.drop_left]
  · rintro ⟨within, after, rest⟩
    exact ⟨stream.take position, after, by rw [rest, List.take_append_drop], (List.length_take_of_le within).symm⟩

-- What is left of the stream gives the length and the record back as far as it reaches.
theorem framed_length_field (kept lost : Bytes) (position : Nat) (record : Bytes)
    (framed : Framed width (kept ++ lost) position record) (within : position + width ≤ kept.length) :
    slice kept position width = toBytes width record.length := by
  rw [← slice_append kept lost position width within]
  obtain ⟨before, after, same, rfl⟩ := framed
  rw [same, frame, List.append_assoc]
  exact slice_middle before _ _ _ _ rfl (length_to_bytes width record.length).symm

theorem framed_record (kept lost : Bytes) (position : Nat) (record : Bytes)
    (framed : Framed width (kept ++ lost) position record) (within : position + width + record.length ≤ kept.length) :
    slice kept (position + width) record.length = record := by
  rw [← slice_append kept lost (position + width) record.length within]
  obtain ⟨before, after, same, rfl⟩ := framed
  rw [same, frame, List.append_assoc, ← List.append_assoc]
  apply slice_middle
  · simp
  · rfl

end Frames

section Slots

variable {Entry : Type} (encode : Nat → Entry → Bytes)

-- Numbered entries of one width, one behind the other.
def slots : Nat → List Entry → Bytes
  | _, [] => []
  | number, entry :: rest => encode number entry ++ slots (number + 1) rest

theorem slots_append (number : Nat) (entries more : List Entry) :
    slots encode number (entries ++ more) = slots encode number entries ++ slots encode (number + entries.length) more := by
  induction entries generalizing number with
  | nil => rfl
  | cons entry rest ih =>
      rw [List.cons_append, slots, slots, ih (number + 1), List.length_cons, Nat.add_right_comm, Nat.add_assoc,
        List.append_assoc]

theorem slots_snoc (entries : List Entry) (entry : Entry) :
    slots encode 0 (entries ++ [entry]) = slots encode 0 entries ++ encode entries.length entry := by
  rw [slots_append, Nat.zero_add, slots, slots, List.append_nil]

variable (width : Nat) (fixed : ∀ number entry, (encode number entry).length = width)

include fixed

theorem length_slots (number : Nat) (entries : List Entry) :
    (slots encode number entries).length = width * entries.length := by
  induction entries generalizing number with
  | nil => rfl
  | cons entry rest ih =>
      rw [slots, List.length_append, ih, fixed, List.length_cons, Nat.mul_succ, Nat.add_comm]

theorem slot_split (entries : List Entry) (padding : Bytes) (number : Nat) (entry : Entry)
    (found : entries[number]? = some entry) :
    ∃ before after, slots encode 0 entries ++ padding = before ++ (encode number entry ++ after) ∧
      before.length = width * number := by
  have bound := (List.getElem?_eq_some_iff.mp found).1
  have count : (entries.take number).length = number := by
    rw [List.length_take]
    exact Nat.min_eq_left bound.le
  refine ⟨slots encode 0 (entries.take number), slots encode (number + 1) (entries.drop (number + 1)) ++ padding, ?_, ?_⟩
  · have parts : entries = entries.take number ++ entry :: entries.drop (number + 1) := by
      rw [← (List.getElem?_eq_some_iff.mp found).2, List.getElem_cons_drop, List.take_append_drop]
    conv_lhs => rw [parts, slots_append, slots, count, Nat.zero_add]
    simp only [List.append_assoc]
  · rw [length_slots encode width fixed, count]

end Slots

end RaftLog.Lib
