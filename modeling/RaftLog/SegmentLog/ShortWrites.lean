import RaftLog.Lib.Machine
import RaftLog.SegmentLog.Store

set_option autoImplicit false

namespace RaftLog.ShortWrites

open Lib SegmentLog

-- What one call of `write` of the underlying writer comes to: it takes so many bytes, or
-- all if there are fewer, or it returns an error.
inductive Answer where
  | takes (count : Nat)
  | interrupted
  | fails
deriving DecidableEq, Repr

inductive Refusal where
  | writeZero
  | interrupted
  | os
deriving DecidableEq, Repr

-- BufWriter::flush_buf: the buffer that is kept, and the bytes that reach the file. Calls
-- beyond the list take everything.
def flushBuf : List Answer → Bytes → Bytes × Bytes × Except Refusal Unit
  | _, [] => ([], [], .ok ())
  | [], buffer => ([], buffer, .ok ())
  | .takes 0 :: _, buffer => (buffer, [], .error .writeZero)
  | .takes (count + 1) :: rest, buffer =>
      let (kept, out, result) := flushBuf rest (buffer.drop (count + 1))
      (kept, buffer.take (count + 1) ++ out, result)
  | .interrupted :: rest, buffer => flushBuf rest buffer
  | .fails :: _, buffer => (buffer, [], .error .os)

def makeRoom (answers : List Answer) (buffer bytes : Bytes) : Bytes × Bytes × Except Refusal Unit :=
  if bytes.length > bufferCapacity - buffer.length then flushBuf answers buffer else (buffer, [], .ok ())

-- BufWriter::write_all of bytes that the buffer has room for once it is empty.
def bufferAll (answers : List Answer) (buffer bytes : Bytes) : Bytes × Bytes × Except Refusal Unit :=
  match makeRoom answers buffer bytes with
  | (kept, out, .error refusal) => (kept, out, .error refusal)
  | (kept, out, .ok ()) => (kept ++ bytes, out, .ok ())

-- BufWriter::write: bytes that the buffer cannot hold go to the writer in one call.
def bufferOnce (answers : List Answer) (direct : Answer) (buffer bytes : Bytes) : Bytes × Bytes × Except Refusal Nat :=
  match makeRoom answers buffer bytes with
  | (kept, out, .error refusal) => (kept, out, .error refusal)
  | (kept, out, .ok ()) =>
      if bytes.length ≥ bufferCapacity then
        match direct with
        | .takes count => (kept, out ++ bytes.take count, .ok (min count bytes.length))
        | .interrupted => (kept, out, .error .interrupted)
        | .fails => (kept, out, .error .os)
      else (kept ++ bytes, out, .ok bytes.length)

-- The answers to the calls of one append, at each place that makes some.
structure Answers where
  lengthFlush : List Answer
  recordFlush : List Answer
  direct : Answer
  flush : List Answer
  syncData : Bool
deriving DecidableEq, Repr

def append (store : Store) (syncWrites : Bool) (record : Bytes) (answers : Answers) : Store × Bytes × Except Refusal Nat :=
  match bufferAll answers.lengthFlush store.buffer (toBytes lengthWidth record.length) with
  | (kept, lengthOut, .error refusal) => (⟨store.size, kept⟩, lengthOut, .error refusal)
  | (first, lengthOut, .ok ()) =>
      match bufferOnce answers.recordFlush answers.direct first record with
      | (kept, recordOut, .error refusal) => (⟨store.size, kept⟩, lengthOut ++ recordOut, .error refusal)
      | (second, recordOut, .ok count) =>
          let written := count + lengthWidth
          let size := store.size + written
          if syncWrites then
            match flushBuf answers.flush second with
            | (kept, out, .error refusal) => (⟨size, kept⟩, lengthOut ++ recordOut ++ out, .error refusal)
            | (kept, out, .ok ()) =>
                (⟨size, kept⟩, lengthOut ++ recordOut ++ out, if answers.syncData then .ok written else .error .os)
          else (⟨size, second⟩, lengthOut ++ recordOut, .ok written)

def read (store : Store) (file : Bytes) (position : Nat) (buf : Bytes) (answers : List Answer) :
    Store × Bytes × Except Refusal (Bytes × Except Failure Unit) :=
  match flushBuf answers store.buffer with
  | (kept, out, .error refusal) => (⟨store.size, kept⟩, out, .error refusal)
  | (kept, out, .ok ()) => (⟨store.size, kept⟩, out, .ok (fetch (file ++ out) position buf))

theorem flush_buf_none (buffer : Bytes) : flushBuf [] buffer = ([], buffer, .ok ()) := by
  cases buffer with
  | nil => rfl
  | cons byte rest => rfl

theorem make_room_none (buffer bytes : Bytes) : makeRoom [] buffer bytes =
    if bytes.length > bufferCapacity - buffer.length then ([], buffer, .ok ()) else (buffer, [], .ok ()) := by
  rw [makeRoom, flush_buf_none]

theorem buffer_all_none (buffer bytes : Bytes) (small : bytes.length < bufferCapacity) :
    bufferAll [] buffer bytes = ((bufferWrite buffer bytes).1, (bufferWrite buffer bytes).2.flatten, .ok ()) := by
  rw [bufferAll, make_room_none, bufferWrite]
  by_cases overflows : bytes.length > bufferCapacity - buffer.length
  · simp only [if_pos overflows, if_neg (Nat.not_le_of_lt small), ge_iff_le, flushed_flatten]
  · simp only [if_neg overflows, if_neg (Nat.not_le_of_lt small), ge_iff_le, List.flatten_nil]

theorem buffer_once_none (buffer bytes : Bytes) :
    bufferOnce [] (.takes bytes.length) buffer bytes =
      ((bufferWrite buffer bytes).1, (bufferWrite buffer bytes).2.flatten, .ok bytes.length) := by
  rw [bufferOnce, make_room_none, bufferWrite]
  by_cases overflows : bytes.length > bufferCapacity - buffer.length
  · simp only [if_pos overflows]
    split
    · rw [List.flatten_append, flushed_flatten, List.take_length, Nat.min_self]
      simp
    · rw [flushed_flatten]
  · simp only [if_neg overflows]
    split
    · rw [List.take_length, Nat.min_self]
      simp
    · rfl

-- With a writer that takes everything this is the append of the model.
theorem append_taken (store : Store) (syncWrites : Bool) (record : Bytes) :
    append store syncWrites record ⟨[], [], .takes record.length, [], true⟩ =
      ((store.append syncWrites record).1, (store.append syncWrites record).2.flatten, .ok (record.length + lengthWidth)) := by
  rw [append, buffer_all_none _ _ (by rw [length_to_bytes]; decide)]
  dsimp only
  rw [buffer_once_none]
  cases syncWrites with
  | true => simp [flush_buf_none, Store.append, flushed_flatten]
  | false => simp [Store.append]

theorem flush_buf_stream (answers : List Answer) (buffer : Bytes) :
    (flushBuf answers buffer).2.1 ++ (flushBuf answers buffer).1 = buffer := by
  fun_induction flushBuf answers buffer with
  | case1 => rfl
  | case2 => exact List.append_nil _
  | case3 => rfl
  | case4 count rest buffer _ kept out result same ih =>
      rw [same] at ih
      dsimp only at ih ⊢
      rw [List.append_assoc, ih, List.take_append_drop]
  | case5 rest buffer _ ih => exact ih
  | case6 => rfl

theorem flush_buf_empties (answers : List Answer) (buffer : Bytes) (ends : (flushBuf answers buffer).2.2 = .ok ()) :
    (flushBuf answers buffer).1 = [] := by
  fun_induction flushBuf answers buffer with
  | case1 => rfl
  | case2 => rfl
  | case3 => cases ends
  | case4 count rest buffer _ kept out result same ih =>
      rw [same] at ih
      exact ih ends
  | case5 rest buffer _ ih => exact ih ends
  | case6 => cases ends

theorem make_room_stream (answers : List Answer) (buffer bytes : Bytes) :
    (makeRoom answers buffer bytes).2.1 ++ (makeRoom answers buffer bytes).1 = buffer := by
  unfold makeRoom
  split
  · exact flush_buf_stream answers buffer
  · rfl

theorem buffer_all_stream (answers : List Answer) (buffer bytes : Bytes) :
    (bufferAll answers buffer bytes).2.1 ++ (bufferAll answers buffer bytes).1 =
      match (bufferAll answers buffer bytes).2.2 with
      | .ok () => buffer ++ bytes
      | .error _ => buffer := by
  have room := make_room_stream answers buffer bytes
  unfold bufferAll
  generalize makeRoom answers buffer bytes = made at room
  obtain ⟨kept, out, result⟩ := made
  cases result with
  | error refusal => exact room
  | ok _ =>
      dsimp only at room ⊢
      rw [← List.append_assoc, room]

-- What the writer takes of a record that an append gets through with.
def taken (direct : Answer) (record : Bytes) : Nat :=
  match direct with
  | .takes count => if record.length ≥ bufferCapacity then min count record.length else record.length
  | _ => record.length

theorem buffer_once_stream (answers : List Answer) (direct : Answer) (buffer bytes : Bytes) :
    (bufferOnce answers direct buffer bytes).2.1 ++ (bufferOnce answers direct buffer bytes).1 = buffer ∧
        (∃ refusal, (bufferOnce answers direct buffer bytes).2.2 = .error refusal) ∨
      (bufferOnce answers direct buffer bytes).2.1 ++ (bufferOnce answers direct buffer bytes).1 =
          buffer ++ bytes.take (taken direct bytes) ∧
        (bufferOnce answers direct buffer bytes).2.2 = .ok (taken direct bytes) := by
  have room := make_room_stream answers buffer bytes
  have emptied : bytes.length ≥ bufferCapacity → (makeRoom answers buffer bytes).2.2 = .ok () →
      (makeRoom answers buffer bytes).1 = [] := by
    intro long
    unfold makeRoom
    split
    · exact flush_buf_empties answers buffer
    · rename_i fits
      intro _
      have none : buffer.length = 0 := by
        unfold bufferCapacity at long fits
        omega
      exact List.eq_nil_of_length_eq_zero none
  unfold bufferOnce
  generalize makeRoom answers buffer bytes = made at room emptied
  obtain ⟨kept, out, result⟩ := made
  cases result with
  | error refusal => exact .inl ⟨room, refusal, rfl⟩
  | ok _ =>
      dsimp only at room ⊢
      by_cases long : bytes.length ≥ bufferCapacity
      · rw [if_pos long]
        have none : kept = [] := emptied long rfl
        subst none
        cases direct with
        | takes count =>
            have count : taken (.takes count) bytes = min count bytes.length := if_pos long
            rw [count]
            refine .inr ⟨?_, rfl⟩
            rw [← room, List.append_nil, List.append_nil]
            exact congrArg _ List.take_eq_take_min
        | interrupted => exact .inl ⟨room, _, rfl⟩
        | fails => exact .inl ⟨room, _, rfl⟩
      · rw [if_neg long]
        have whole : taken direct bytes = bytes.length := by
          cases direct with
          | takes count => exact if_neg long
          | interrupted | fails => rfl
        rw [whole]
        exact .inr ⟨by rw [← room, List.append_assoc, List.take_length], rfl⟩

-- An append that gives up before its record is out leaves nothing behind or the length alone.
inductive Appended (store : Store) (record : Bytes) (answers : Answers) : Store → Bytes → Except Refusal Nat → Prop where
  | refused (kept out : Bytes) (refusal : Refusal) (more : Bytes) (rest : more = [] ∨ more = toBytes lengthWidth record.length)
      (stream : out ++ kept = store.buffer ++ more) : Appended store record answers ⟨store.size, kept⟩ out (.error refusal)
  | written (kept out : Bytes) (result : Except Refusal Nat)
      (stream : out ++ kept = store.buffer ++ (toBytes lengthWidth record.length ++ record.take (taken answers.direct record)))
      (ends : result = .ok (taken answers.direct record + lengthWidth) ∨ ∃ refusal, result = .error refusal) :
      Appended store record answers ⟨store.size + (taken answers.direct record + lengthWidth), kept⟩ out result

theorem append_outcome (store : Store) (syncWrites : Bool) (record : Bytes) (answers : Answers) :
    Appended store record answers (append store syncWrites record answers).1 (append store syncWrites record answers).2.1
      (append store syncWrites record answers).2.2 := by
  have header := buffer_all_stream answers.lengthFlush store.buffer (toBytes lengthWidth record.length)
  unfold append
  generalize bufferAll answers.lengthFlush store.buffer (toBytes lengthWidth record.length) = first at header
  obtain ⟨first, lengthOut, result⟩ := first
  cases result with
  | error refusal => exact .refused first lengthOut refusal [] (.inl rfl) (by rw [List.append_nil]; exact header)
  | ok _ =>
      have body := buffer_once_stream answers.recordFlush answers.direct first record
      dsimp only at header ⊢
      generalize bufferOnce answers.recordFlush answers.direct first record = second at body
      obtain ⟨second, recordOut, result⟩ := second
      rcases body with ⟨stream, refusal, rfl⟩ | ⟨stream, rfl⟩
      · refine .refused second _ refusal _ (.inr rfl) ?_
        rw [List.append_assoc, show recordOut ++ second = first from stream, header]
      · have both : lengthOut ++ recordOut ++ second =
            store.buffer ++ (toBytes lengthWidth record.length ++ record.take (taken answers.direct record)) := by
          rw [List.append_assoc, show recordOut ++ second = _ from stream, ← List.append_assoc, header, List.append_assoc]
        cases syncWrites with
        | false => exact .written second _ _ both (.inl rfl)
        | true =>
            have flushed := flush_buf_stream answers.flush second
            dsimp only
            rw [if_pos rfl]
            generalize flushBuf answers.flush second = last at flushed
            obtain ⟨kept, out, result⟩ := last
            have stream : lengthOut ++ recordOut ++ out ++ kept = _ :=
              (by rw [List.append_assoc, show out ++ kept = second from flushed] : _ = lengthOut ++ recordOut ++ second).trans both
            cases result with
            | error refusal => exact .written kept _ _ stream (.inr ⟨refusal, rfl⟩)
            | ok _ =>
                cases answers.syncData with
                | true => exact .written kept _ _ stream (.inl rfl)
                | false => exact .written kept _ _ stream (.inr ⟨.os, rfl⟩)

-- An append that returned Ok, and len() before and after it.
structure Acknowledged where
  position : Nat
  record : Bytes
  length : Nat
deriving DecidableEq, Repr

structure Session where
  file : Bytes
  store : Store
  acknowledged : List Acknowledged
deriving DecidableEq, Repr

def Session.stream (session : Session) : Bytes := session.file ++ session.store.buffer

inductive Action where
  | append (record : Bytes) (answers : Answers)
  | read (position : Nat) (buf : Bytes) (answers : List Answer)
deriving DecidableEq, Repr

-- Files end at 2^63 - 1 bytes.
def step (syncWrites : Bool) (session : Session) : Action → Option Session
  | .append record answers =>
      let (store, out, result) := append session.store syncWrites record answers
      if (session.file ++ out ++ store.buffer).length ≤ i64Max then
        some ⟨session.file ++ out, store,
          match result with
          | .ok _ => session.acknowledged ++ [⟨session.store.size, record, store.size⟩]
          | .error _ => session.acknowledged⟩
      else none
  | .read position buf answers =>
      let (store, out, _) := read session.store session.file position buf answers
      some ⟨session.file ++ out, store, session.acknowledged⟩

-- Store::new on any file.
def machine (syncWrites : Bool) : Machine Session Action where
  start session := session = ⟨session.file, Store.new session.file, []⟩ ∧ session.file.length ≤ i64Max
  step := step syncWrites

-- The length of the store has grown by the whole record, and a read there whose flush goes
-- through gives the record back.
structure Whole (session : Session) (entry : Acknowledged) : Prop where
  length : entry.length = entry.position + (lengthWidth + entry.record.length)
  reads : ∀ buf answers outcome, (read session.store session.file entry.position buf answers).2.2 = .ok outcome →
    outcome = (entry.record, .ok ())

def AllWhole (session : Session) : Prop := ∀ entry ∈ session.acknowledged, Whole session entry

-- Behind what len() counts the stream goes on as the frame of the record does. It is so
-- when nothing is there.
def clear (session : Session) (record : Bytes) : Bool :=
  (frame lengthWidth record).isPrefixOf (session.stream.drop session.store.size ++ frame lengthWidth record)

-- The writer takes the pending bytes of a flush without an error.
def drains : List Answer → Nat → Bool
  | _, 0 => true
  | [], _ => true
  | .takes 0 :: _, _ => false
  | .takes (count + 1) :: rest, pending => drains rest (pending - (count + 1))
  | .interrupted :: rest, pending => drains rest pending
  | .fails :: _, _ => false

def Answer.isTaken : Answer → Bool
  | .takes _ => true
  | _ => false

-- What is pending once there is room for so many bytes more.
def pendingBefore (pending more : Nat) : Nat := if more > bufferCapacity - pending then 0 else pending

def getsRoom (answers : List Answer) (pending more : Nat) : Bool :=
  more ≤ bufferCapacity - pending || drains answers pending

-- None of the calls fails that an append makes of a record of such a length.
def unfailing (syncWrites : Bool) (pending length : Nat) (answers : Answers) : Bool :=
  let first := pendingBefore pending lengthWidth + lengthWidth
  let second := pendingBefore first length + if length ≥ bufferCapacity then 0 else length
  getsRoom answers.lengthFlush pending lengthWidth &&
    (getsRoom answers.recordFlush first length && (length < bufferCapacity || answers.direct.isTaken)) &&
    (!syncWrites || drains answers.flush second && answers.syncData)

-- An append none of whose calls fails has its record taken whole and finds nothing in its way.
def unshortened (syncWrites : Bool) (session : Session) : Action → Bool
  | .append record answers => !unfailing syncWrites session.store.buffer.length record.length answers ||
      taken answers.direct record = record.length && clear session record
  | .read .. => true

theorem flush_buf_ok (answers : List Answer) (buffer : Bytes) :
    (flushBuf answers buffer).2.2.isOk = drains answers buffer.length := by
  fun_induction flushBuf answers buffer with
  | case1 =>
      rw [List.length_nil, drains]
      rfl
  | case2 buffer some | case3 rest buffer some | case6 rest buffer some =>
      obtain ⟨byte, tail, rfl⟩ := List.exists_cons_of_ne_nil some
      rfl
  | case4 count rest buffer some kept out result same ih =>
      obtain ⟨byte, tail, rfl⟩ := List.exists_cons_of_ne_nil some
      rw [same, List.length_drop] at ih
      exact ih
  | case5 rest buffer some ih =>
      obtain ⟨byte, tail, rfl⟩ := List.exists_cons_of_ne_nil some
      exact ih

theorem make_room_ok (answers : List Answer) (buffer bytes : Bytes) :
    (makeRoom answers buffer bytes).2.2.isOk = getsRoom answers buffer.length bytes.length := by
  rw [makeRoom, getsRoom]
  split
  · rename_i overflows
    rw [decide_eq_false (Nat.not_le_of_gt overflows), Bool.false_or, flush_buf_ok]
  · rename_i fits
    rw [decide_eq_true (Nat.le_of_not_lt fits), Bool.true_or]
    rfl

theorem make_room_pending (answers : List Answer) (buffer bytes : Bytes) (ends : (makeRoom answers buffer bytes).2.2 = .ok ()) :
    (makeRoom answers buffer bytes).1.length = pendingBefore buffer.length bytes.length := by
  unfold makeRoom at ends ⊢
  unfold pendingBefore
  split at ends
  · rename_i overflows
    rw [if_pos overflows, if_pos overflows, flush_buf_empties answers buffer ends]
    rfl
  · rename_i fits
    rw [if_neg fits, if_neg fits]

theorem buffer_all_ok (answers : List Answer) (buffer bytes : Bytes) :
    (bufferAll answers buffer bytes).2.2.isOk = getsRoom answers buffer.length bytes.length ∧
      ((bufferAll answers buffer bytes).2.2 = .ok () →
        (bufferAll answers buffer bytes).1.length = pendingBefore buffer.length bytes.length + bytes.length) := by
  have room := make_room_ok answers buffer bytes
  have pending := make_room_pending answers buffer bytes
  unfold bufferAll
  generalize makeRoom answers buffer bytes = made at room pending
  obtain ⟨kept, out, result⟩ := made
  cases result with
  | error refusal => exact ⟨room, fun ends => by cases ends⟩
  | ok _ => exact ⟨room, fun _ => by rw [List.length_append, show kept.length = _ from pending rfl]⟩

theorem buffer_once_ok (answers : List Answer) (direct : Answer) (buffer bytes : Bytes) :
    (bufferOnce answers direct buffer bytes).2.2.isOk =
        (getsRoom answers buffer.length bytes.length && (bytes.length < bufferCapacity || direct.isTaken)) ∧
      ((bufferOnce answers direct buffer bytes).2.2.isOk = true → (bufferOnce answers direct buffer bytes).1.length =
        pendingBefore buffer.length bytes.length + if bytes.length ≥ bufferCapacity then 0 else bytes.length) := by
  have room := make_room_ok answers buffer bytes
  have pending := make_room_pending answers buffer bytes
  unfold bufferOnce
  generalize makeRoom answers buffer bytes = made at room pending
  obtain ⟨kept, out, result⟩ := made
  cases result with
  | error refusal =>
      rw [← show false = getsRoom _ _ _ from room]
      exact ⟨rfl, fun ends => by cases ends⟩
  | ok _ =>
      rw [← show true = getsRoom _ _ _ from room, ← show kept.length = _ from pending rfl, Bool.true_and]
      dsimp only
      by_cases long : bytes.length ≥ bufferCapacity
      · rw [if_pos long, if_pos long, decide_eq_false (Nat.not_lt_of_le long), Bool.false_or]
        cases direct with
        | takes count => exact ⟨rfl, fun _ => rfl⟩
        | interrupted | fails => exact ⟨rfl, fun ends => by cases ends⟩
      · rw [if_neg long, if_neg long, decide_eq_true (Nat.lt_of_not_le long), Bool.true_or]
        exact ⟨rfl, fun _ => List.length_append⟩

theorem append_ok (store : Store) (syncWrites : Bool) (record : Bytes) (answers : Answers) :
    (append store syncWrites record answers).2.2.isOk = unfailing syncWrites store.buffer.length record.length answers := by
  obtain ⟨header, first⟩ := buffer_all_ok answers.lengthFlush store.buffer (toBytes lengthWidth record.length)
  rw [length_to_bytes] at header first
  unfold append unfailing
  dsimp only
  rw [← header]
  generalize bufferAll answers.lengthFlush store.buffer (toBytes lengthWidth record.length) = made at first
  obtain ⟨kept, lengthOut, result⟩ := made
  cases result with
  | error refusal => rfl
  | ok _ =>
      obtain ⟨body, second⟩ := buffer_once_ok answers.recordFlush answers.direct kept record
      rw [show kept.length = _ from first rfl] at body second
      rw [← body]
      dsimp only
      generalize bufferOnce answers.recordFlush answers.direct kept record = made at second
      obtain ⟨pending, recordOut, result⟩ := made
      cases result with
      | error refusal => rfl
      | ok count =>
          have flushed := flush_buf_ok answers.flush pending
          rw [show pending.length = _ from second rfl] at flushed
          cases syncWrites with
          | false => rfl
          | true =>
              rw [← flushed]
              dsimp only
              rw [if_pos rfl]
              generalize flushBuf answers.flush pending = made
              obtain ⟨last, out, result⟩ := made
              cases result with
              | error refusal => rfl
              | ok _ => cases answers.syncData <;> rfl

theorem taken_le (direct : Answer) (record : Bytes) : taken direct record ≤ record.length := by
  unfold taken
  split
  · split
    · exact Nat.min_le_right _ _
    · exact le_rfl
  · exact le_rfl

theorem read_fetch (store : Store) (file : Bytes) (position : Nat) (buf : Bytes) (answers : List Answer)
    (outcome : Bytes × Except Failure Unit) (ends : (read store file position buf answers).2.2 = .ok outcome) :
    outcome = fetch (file ++ store.buffer) position buf := by
  have stream := flush_buf_stream answers store.buffer
  have emptied := flush_buf_empties answers store.buffer
  unfold read at ends
  generalize flushBuf answers store.buffer = made at stream emptied ends
  obtain ⟨kept, out, result⟩ := made
  cases result with
  | error refusal => cases ends
  | ok _ =>
      have none : kept = [] := emptied rfl
      have all : out ++ kept = store.buffer := stream
      rw [none, List.append_nil] at all
      rw [← all]
      exact (Except.ok.inj ends).symm

theorem whole_iff (session : Session) (entry : Acknowledged) (fits : session.stream.length ≤ i64Max) :
    Whole session entry ↔ entry.length = entry.position + (lengthWidth + entry.record.length) ∧
      Framed lengthWidth session.stream entry.position entry.record := by
  constructor
  · intro whole
    refine ⟨whole.length, fetch_inv session.stream entry.position entry.record [] ?_⟩
    apply whole.reads [] []
    simp only [read, flush_buf_none]
    rfl
  · rintro ⟨length, framed⟩
    refine ⟨length, fun buf answers outcome ends => ?_⟩
    rw [read_fetch session.store session.file entry.position buf answers outcome ends]
    rcases fetch_framed session.stream [] entry.position entry.record buf (by rwa [List.append_nil])
      (by rwa [List.append_nil]) with whole | ⟨_, lost⟩
    · exact whole
    · exact absurd rfl lost

theorem clear_iff (session : Session) (record : Bytes) (within : session.store.size ≤ session.stream.length) :
    clear session record = true ↔
      Framed lengthWidth (session.stream ++ frame lengthWidth record) session.store.size record := by
  rw [clear, List.isPrefixOf_iff_prefix, framed_iff, List.drop_append_of_le_length within, List.length_append]
  exact (and_iff_right (by omega)).symm

-- len() counts nothing that is not there, and the file can hold it all.
structure Counted (session : Session) : Prop where
  within : session.store.size ≤ session.stream.length
  fits : session.stream.length ≤ i64Max

theorem longer_whole (session next : Session) (entry : Acknowledged) (more : Bytes) (fits : next.stream.length ≤ i64Max)
    (grows : next.stream = session.stream ++ more) (whole : Whole session entry) : Whole next entry := by
  have before : session.stream.length ≤ i64Max := by
    rw [grows, List.length_append] at fits
    omega
  obtain ⟨length, framed⟩ := (whole_iff session entry before).mp whole
  rw [whole_iff next entry fits, grows]
  exact ⟨length, framed_append lengthWidth _ more _ _ framed⟩

theorem read_step (syncWrites : Bool) (session next : Session) (position : Nat) (buf : Bytes) (answers : List Answer)
    (moves : step syncWrites session (.read position buf answers) = some next) :
    next.stream = session.stream ∧ next.store.size = session.store.size ∧ next.acknowledged = session.acknowledged := by
  have stream := flush_buf_stream answers session.store.buffer
  simp only [step, read] at moves
  generalize flushBuf answers session.store.buffer = made at stream moves
  obtain ⟨kept, out, result⟩ := made
  cases result <;> cases moves <;>
    exact ⟨by rw [Session.stream, List.append_assoc, show out ++ kept = _ from stream, Session.stream], rfl, rfl⟩

inductive AppendStep (session : Session) (record : Bytes) (answers : Answers) (ok : Bool) (next : Session) : Prop where
  | refused (more : Bytes) (stream : next.stream = session.stream ++ more) (size : next.store.size = session.store.size)
      (same : next.acknowledged = session.acknowledged) (fails : ok = false)
  | written (stream : next.stream =
        session.stream ++ (toBytes lengthWidth record.length ++ record.take (taken answers.direct record)))
      (size : next.store.size = session.store.size + (taken answers.direct record + lengthWidth))
      (ends : next.acknowledged = if ok then session.acknowledged ++ [⟨session.store.size, record, next.store.size⟩]
        else session.acknowledged)

theorem append_step (syncWrites : Bool) (session next : Session) (record : Bytes) (answers : Answers)
    (moves : step syncWrites session (.append record answers) = some next) :
    AppendStep session record answers (append session.store syncWrites record answers).2.2.isOk next ∧
      next.stream.length ≤ i64Max := by
  have outcome := append_outcome session.store syncWrites record answers
  simp only [step] at moves
  generalize append session.store syncWrites record answers = made at outcome moves
  obtain ⟨store, out, result⟩ := made
  dsimp only at outcome moves
  split at moves
  case isFalse => cases moves
  rename_i fits
  have grown : ∀ more, out ++ store.buffer = session.store.buffer ++ more →
      session.file ++ out ++ store.buffer = session.stream ++ more := by
    intro more stream
    rw [List.append_assoc, stream, ← List.append_assoc, Session.stream]
  cases outcome with
  | refused kept _ refusal more _ stream =>
      cases moves
      exact ⟨.refused more (grown more stream) rfl rfl rfl, fits⟩
  | written kept _ _ stream ends =>
      rcases ends with rfl | ⟨refusal, rfl⟩ <;> cases moves <;>
        exact ⟨.written (grown _ stream) rfl rfl, fits⟩

theorem counted_step (syncWrites : Bool) (session next : Session) (action : Action) (counted : Counted session)
    (moves : step syncWrites session action = some next) : Counted next := by
  cases action with
  | read position buf answers =>
      obtain ⟨stream, size, _⟩ := read_step syncWrites session next position buf answers moves
      exact ⟨by rw [stream, size]; exact counted.within, by rw [stream]; exact counted.fits⟩
  | append record answers =>
      obtain ⟨outcome, fits⟩ := append_step syncWrites session next record answers moves
      refine ⟨?_, fits⟩
      have within := counted.within
      cases outcome with
      | refused more stream size =>
          rw [stream, size, List.length_append]
          omega
      | written stream size =>
          have least := taken_le answers.direct record
          rw [stream, size, List.length_append, List.length_append, length_to_bytes, List.length_take_of_le least]
          omega

theorem whole_step (syncWrites : Bool) (session next : Session) (action : Action) (counted : Counted session)
    (whole : AllWhole session) (moves : step syncWrites session action = some next) :
    AllWhole next ↔ unshortened syncWrites session action = true := by
  have fits := (counted_step syncWrites session next action counted moves).fits
  cases action with
  | read position buf answers =>
      obtain ⟨stream, _, same⟩ := read_step syncWrites session next position buf answers moves
      apply iff_of_true _ rfl
      intro entry member
      exact longer_whole session next entry [] fits (by rw [stream, List.append_nil]) (whole entry (same ▸ member))
  | append record answers =>
      obtain ⟨outcome, _⟩ := append_step syncWrites session next record answers moves
      rw [unshortened]
      rw [append_ok] at outcome
      generalize unfailing syncWrites session.store.buffer.length record.length answers = ok at outcome
      cases outcome with
      | refused more stream _ same fails =>
          apply iff_of_true _ (by rw [fails]; rfl)
          intro entry member
          exact longer_whole session next entry more fits stream (whole entry (same ▸ member))
      | written stream size ends =>
          have kept : ∀ entry ∈ session.acknowledged, Whole next entry := fun entry member =>
            longer_whole session next entry _ fits stream (whole entry member)
          cases ok with
          | false =>
              apply iff_of_true _ rfl
              intro entry member
              exact kept entry (by rwa [ends] at member)
          | true =>
              rw [if_pos rfl] at ends
              rw [AllWhole, ends, List.forall_mem_append, and_iff_right kept, List.forall_mem_singleton,
                whole_iff next _ fits, size, Bool.not_true, Bool.false_or, Bool.and_eq_true, decide_eq_true_eq]
              by_cases all : taken answers.direct record = record.length
              · have frames : toBytes lengthWidth record.length ++ record = frame lengthWidth record := rfl
                rw [stream, all, List.take_length, frames, clear_iff session record counted.within]
                exact and_congr_left' (iff_of_true (by dsimp only; omega) rfl)
              · exact iff_of_false (fun both => all (by have length := both.1; dsimp only at length; omega))
                  fun both => all both.1

-- In a run in which every append that returns Ok is taken whole and finds nothing in its
-- way, and in no other, every acknowledged record is there whole.
theorem whole_iff_unshortened (syncWrites : Bool) (session : Session) :
    Run (machine syncWrites) (fun session _ => AllWhole session) session ∧ AllWhole session ↔
      Run (machine syncWrites) (fun session action => unshortened syncWrites session action = true) session := by
  apply run_through_iff (machine syncWrites) _ Counted AllWhole
  · rintro session ⟨same, fits⟩
    have stream : session.stream = session.file := by
      rw [same]
      exact List.append_nil session.file
    refine ⟨⟨?_, by rwa [stream]⟩, ?_⟩
    · rw [stream, same]
      exact le_rfl
    · rw [same]
      intro entry member
      cases member
  · intro session action next counted moves
    exact counted_step syncWrites session next action counted moves
  · intro session action next counted whole moves
    exact whole_step syncWrites session next action counted whole moves

theorem short_append (record : Bytes) (count : Nat) (long : bufferCapacity ≤ record.length) :
    append (Store.new []) false record ⟨[], [], .takes count, [], true⟩ =
      (⟨min count record.length + lengthWidth, []⟩, toBytes lengthWidth record.length ++ record.take count,
        .ok (min count record.length + lengthWidth)) := by
  have header : bufferAll [] [] (toBytes lengthWidth record.length) = (toBytes lengthWidth record.length, [], .ok ()) := by
    rw [bufferAll, makeRoom, length_to_bytes, if_neg (by decide)]
    rfl
  have room : makeRoom [] (toBytes lengthWidth record.length) record = ([], toBytes lengthWidth record.length, .ok ()) := by
    rw [makeRoom, length_to_bytes, if_pos, flush_buf_none]
    exact Nat.lt_of_lt_of_le (by decide) long
  rw [append, show (Store.new []).buffer = [] from rfl, header]
  simp only [bufferOnce, room, ge_iff_le, if_pos long, Bool.false_eq_true, if_false, List.nil_append]
  rw [show (Store.new []).size = 0 from rfl, Nat.zero_add]

def blank : Session := ⟨[], Store.new [], []⟩

theorem short_append_acknowledged (record : Bytes) (count : Nat) (long : bufferCapacity ≤ record.length)
    (short : count < record.length) (fits : record.length + lengthWidth ≤ i64Max) :
    ∃ session, Reachable (machine false) session ∧ ¬ AllWhole session := by
  have appended := short_append record count long
  rw [Nat.min_eq_left short.le] at appended
  let after : Session := ⟨toBytes lengthWidth record.length ++ record.take count, ⟨count + lengthWidth, []⟩,
    [⟨0, record, count + lengthWidth⟩]⟩
  have moves : (machine false).step blank (.append record ⟨[], [], .takes count, [], true⟩) = some after := by
    simp only [machine, step, blank, appended, List.nil_append, List.append_nil]
    rw [if_pos]
    · rfl
    · rw [List.length_append, length_to_bytes, List.length_take_of_le short.le]
      omega
  refine ⟨after, .step blank after _ (.start blank ⟨rfl, Nat.zero_le _⟩) trivial moves, fun whole => ?_⟩
  have length : count + lengthWidth = 0 + (lengthWidth + record.length) := (whole _ (List.mem_singleton_self _)).length
  omega

-- The last byte of a record of 8192 bytes is not taken.
theorem short_write_acknowledged : ¬ ∀ syncWrites session, Reachable (machine syncWrites) session → AllWhole session := by
  intro always
  have length : (List.replicate 8192 (0 : UInt8)).length = 8192 := List.length_replicate
  obtain ⟨session, reached, cut⟩ := short_append_acknowledged (List.replicate 8192 0) 8191 length.ge
    (by rw [length]; omega) (by rw [length]; decide)
  exact cut (always false session reached)

end RaftLog.ShortWrites
