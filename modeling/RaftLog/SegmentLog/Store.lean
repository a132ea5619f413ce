import RaftLog.SegmentLog.Model

set_option autoImplicit false

namespace RaftLog.SegmentLog

open Lib

theorem flushed_flatten (buffer : Bytes) : (flushed buffer).flatten = buffer := by
  by_cases empty : buffer = []
  · simp [flushed, empty]
  · simp [flushed, empty]

-- What goes to the file and what stays in the buffer are the old buffer and the new bytes.
theorem buffer_write_stream (buffer bytes : Bytes) :
    (bufferWrite buffer bytes).2.flatten ++ (bufferWrite buffer bytes).1 = buffer ++ bytes := by
  unfold bufferWrite
  by_cases overflows : bytes.length > bufferCapacity - buffer.length
  · rw [if_pos overflows]
    by_cases direct : bytes.length ≥ bufferCapacity
    · simp [direct, flushed_flatten]
    · simp [direct, flushed_flatten]
  · rw [if_neg overflows]
    by_cases direct : bytes.length ≥ bufferCapacity
    · have empty : buffer = [] := by
        apply List.eq_nil_of_length_eq_zero
        unfold bufferCapacity at overflows direct
        omega
      simp [direct, empty]
    · simp [direct]

section Append

variable (store : Store) (syncWrites : Bool) (record : Bytes)

theorem append_stream : (store.append syncWrites record).2.flatten ++ (store.append syncWrites record).1.buffer =
    store.buffer ++ frame lengthWidth record := by
  have first := buffer_write_stream store.buffer (toBytes lengthWidth record.length)
  have second := buffer_write_stream (bufferWrite store.buffer (toBytes lengthWidth record.length)).1 record
  have both : (bufferWrite store.buffer (toBytes lengthWidth record.length)).2.flatten ++
      ((bufferWrite (bufferWrite store.buffer (toBytes lengthWidth record.length)).1 record).2.flatten ++
        (bufferWrite (bufferWrite store.buffer (toBytes lengthWidth record.length)).1 record).1) =
      store.buffer ++ frame lengthWidth record := by
    rw [second, ← List.append_assoc, first, List.append_assoc]
    rfl
  cases syncWrites with
  | true => simpa only [Store.append, if_true, List.flatten_append, flushed_flatten, List.append_nil, List.append_assoc] using both
  | false => simpa [Store.append, List.append_assoc] using both

theorem append_synced (synced : syncWrites = true) : (store.append syncWrites record).1.buffer = [] := by
  subst synced
  rfl

theorem append_size : (store.append syncWrites record).1.size = store.size + (frame lengthWidth record).length := by
  rw [length_frame, Nat.add_comm lengthWidth]
  cases syncWrites with
  | true => rfl
  | false => rfl

end Append

theorem read_exact_within (file : Bytes) (position : Nat) (buf : Bytes) (within : position + buf.length ≤ file.length) :
    readExactAt file position buf = (slice file position buf.length, .ok ()) := by
  have full := slice_length file position buf.length within
  simp [readExactAt, full]

theorem read_exact_beyond (file : Bytes) (position : Nat) (buf : Bytes) (beyond : file.length < position + buf.length)
    (some : buf ≠ []) : (readExactAt file position buf).2 = .error (.io .unexpectedEof "failed to fill whole buffer") := by
  have nonempty := List.length_pos_iff.mpr some
  have short : (slice file position buf.length).length ≠ buf.length := by
    simp only [slice, List.length_take, List.length_drop]
    omega
  simp [readExactAt, short]

-- A record whose frame is in the stream is read whole, or what the file has of the
-- stream ends before it does.
theorem fetch_framed (kept lost : Bytes) (position : Nat) (record buf : Bytes)
    (framed : Framed lengthWidth (kept ++ lost) position record) (fits : (kept ++ lost).length ≤ i64Max) :
    fetch kept position buf = (record, .ok ()) ∨
      (fetch kept position buf).2 = .error (.io .unexpectedEof "failed to fill whole buffer") ∧ lost ≠ [] := by
  have within := framed_within lengthWidth _ position record framed
  have cut : kept.length < position + lengthWidth + record.length → lost ≠ [] := by
    rintro beyond rfl
    rw [List.append_nil] at within
    omega
  by_cases header : position + lengthWidth ≤ kept.length
  case neg =>
    refine .inr ⟨?_, cut (by omega)⟩
    have failed := read_exact_beyond kept position (List.replicate lengthWidth 0)
      (by rw [List.length_replicate]; omega) (by simp [lengthWidth])
    cases read : readExactAt kept position (List.replicate lengthWidth 0) with
    | mk available result =>
        rw [read] at failed
        have failed : result = _ := failed
        simp [fetch, read, failed]
  have small : record.length ≤ i64Max := by omega
  have field : ofBytes (slice kept position lengthWidth) = record.length := by
    rw [framed_length_field lengthWidth kept lost position record framed header]
    apply of_to_bytes
    unfold i64Max at small
    unfold lengthWidth
    omega
  have sum : checkedAdd u64Max position lengthWidth = .ok (position + lengthWidth) := by
    apply if_pos
    rw [List.length_append] at fits
    unfold i64Max at fits
    unfold u64Max
    omega
  have body : fetch kept position buf = readExactAt kept (position + lengthWidth) (resize buf record.length) := by
    rw [fetch, read_exact_within kept position _ (by rwa [List.length_replicate]), List.length_replicate]
    simp only [field, sum, if_neg (Nat.not_lt.mpr small)]
  rw [body]
  by_cases whole : position + lengthWidth + record.length ≤ kept.length
  · left
    rw [read_exact_within kept _ _ (by rwa [length_resize]), length_resize,
      framed_record lengthWidth kept lost position record framed whole]
  · refine .inr ⟨read_exact_beyond kept _ _ (by rw [length_resize]; omega) ?_, cut (by omega)⟩
    intro empty
    have none := congrArg List.length empty
    rw [length_resize, List.length_nil] at none
    omega

theorem read_exact_inv (file : Bytes) (position : Nat) (buf read : Bytes)
    (ends : readExactAt file position buf = (read, .ok ())) :
    read = slice file position buf.length ∧ (slice file position buf.length).length = buf.length := by
  by_cases full : (slice file position buf.length).length = buf.length
  · simp only [readExactAt, full, if_true, List.drop_length, List.append_nil, Prod.mk.injEq] at ends
    exact ⟨ends.1.symm, full⟩
  · simp [readExactAt, full] at ends

-- What is read whole stands in the stream behind its length.
theorem fetch_inv (stream : Bytes) (position : Nat) (record buf : Bytes) (fetched : fetch stream position buf = (record, .ok ())) :
    Framed lengthWidth stream position record := by
  unfold fetch at fetched
  cases header : readExactAt stream position (List.replicate lengthWidth 0) with
  | mk length result =>
      cases result with
      | error failure =>
          rw [header] at fetched
          cases fetched
      | ok _ =>
          obtain ⟨rfl, full⟩ := read_exact_inv stream position _ length header
          rw [List.length_replicate] at full
          rw [header, List.length_replicate] at fetched
          dsimp only at fetched
          split at fetched
          · cases fetched
          cases sum : checkedAdd u64Max position lengthWidth with
          | error failure =>
              rw [sum] at fetched
              cases fetched
          | ok start =>
              have starts : start = position + lengthWidth := by
                unfold checkedAdd at sum
                split at sum <;> cases sum
                rfl
              rw [sum] at fetched
              obtain ⟨same, whole⟩ := read_exact_inv stream start _ record fetched
              rw [length_resize] at same whole
              have digits : toBytes lengthWidth record.length = slice stream position lengthWidth := by
                have inverse := to_of_bytes (slice stream position lengthWidth)
                rw [full] at inverse
                rw [same, whole, inverse]
              rw [framed_iff]
              refine ⟨?_, stream.drop (start + record.length), ?_⟩
              · simp only [slice, List.length_take, List.length_drop, lengthWidth] at full
                omega
              · rw [slice_split stream position lengthWidth, frame, digits, ← starts, slice_split stream start record.length,
                  List.append_assoc]
                congr 2
                rw [same, whole]

end RaftLog.SegmentLog
