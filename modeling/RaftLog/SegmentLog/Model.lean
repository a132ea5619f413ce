import RaftLog.Core.Types
import RaftLog.Lib.Frames
import RaftLog.SegmentLog.Files

set_option autoImplicit false

namespace RaftLog.SegmentLog

open Lib

structure Config where
  initalOffset : Nat
  syncWrites : Bool
  maxSizeBytes : Nat
  maxStoreBytes : Nat
deriving DecidableEq, Repr

inductive ErrorKind where
  | unexpectedEof
  | invalidInput
deriving DecidableEq, Repr

-- An error the caller is given, or an unwinding thread.
inductive Failure where
  | io (kind : ErrorKind) (message : String)
  | panic (message : String)
deriving DecidableEq, Repr

def u32Max : Nat := 2 ^ 32 - 1
def i64Max : Nat := 2 ^ 63 - 1

-- Plain `+`, with the overflow check of the profile the tests run in.
def checkedAdd (most left right : Nat) : Except Failure Nat :=
  if left + right ≤ most then .ok (left + right) else .error (.panic "attempt to add with overflow")

def lengthWidth : Nat := 8
def offWidth : Nat := 4
def positionWidth : Nat := 8
def entireWidth : Nat := offWidth + positionWidth

-- What the default BufWriter holds.
def bufferCapacity : Nat := 8192

structure Store where
  size : Nat
  buffer : Bytes
deriving DecidableEq, Repr

def Store.new (file : Bytes) : Store := ⟨file.length, []⟩

def flushed (buffer : Bytes) : List Bytes := if buffer = [] then [] else [buffer]

-- BufWriter::write: the buffer that is kept, and the writes that reach the file.
def bufferWrite (buffer bytes : Bytes) : Bytes × List Bytes :=
  let (kept, out) :=
    if bytes.length > bufferCapacity - buffer.length then ([], flushed buffer) else (buffer, [])
  if bytes.length ≥ bufferCapacity then (kept, out ++ [bytes]) else (kept ++ bytes, out)

def Store.append (store : Store) (syncWrites : Bool) (record : Bytes) : Store × List Bytes :=
  let (first, lengthOut) := bufferWrite store.buffer (toBytes lengthWidth record.length)
  let (second, recordOut) := bufferWrite first record
  let size := store.size + (record.length + lengthWidth)
  if syncWrites then (⟨size, []⟩, lengthOut ++ recordOut ++ flushed second)
  else (⟨size, second⟩, lengthOut ++ recordOut)

-- The bytes the file has go into the buffer also when they are too few.
def readExactAt (file : Bytes) (position : Nat) (buf : Bytes) : Bytes × Except Failure Unit :=
  let available := slice file position buf.length
  (available ++ buf.drop available.length,
    if available.length = buf.length then .ok () else .error (.io .unexpectedEof "failed to fill whole buffer"))

-- Store::read behind its flush.
def fetch (file : Bytes) (position : Nat) (buf : Bytes) : Bytes × Except Failure Unit :=
  match readExactAt file position (List.replicate lengthWidth 0) with
  | (_, .error failure) => (buf, .error failure)
  | (size, .ok ()) =>
      if ofBytes size > i64Max then (buf, .error (.panic "capacity overflow"))
      else
        let buf := resize buf (ofBytes size)
        match checkedAdd u64Max position lengthWidth with
        | .error failure => (buf, .error failure)
        | .ok start => readExactAt file start buf

def Store.flush (store : Store) : Store × List Bytes := ({ store with buffer := [] }, flushed store.buffer)

structure Index where
  size : Nat
  mapped : Nat
deriving DecidableEq, Repr

-- The loop of recover_size; a slot is 12 bytes, so the length of the file is fuel enough.
def recoverFrom (content : Bytes) (size expected : Nat) : Nat → Except Failure Nat
  | 0 => .ok size
  | fuel + 1 =>
      if size + entireWidth ≤ content.length then
        if ofBytes (slice content size offWidth) ≠ expected then .ok size
        else do
          let expected ← checkedAdd u32Max expected 1
          recoverFrom content (size + entireWidth) expected fuel
      else .ok size

def recoverSize (content : Bytes) : Except Failure Nat := recoverFrom content 0 0 content.length

def Index.new (maxSizeBytes base : Nat) (file : Bytes) : List Write × Except Failure Index :=
  if file.length = 0 then ([.setIndexLen base maxSizeBytes, .fillIndex base], .ok ⟨0, maxSizeBytes⟩)
  else if file.length = maxSizeBytes then
    ([.setIndexLen base maxSizeBytes], (recoverSize (resize file maxSizeBytes)).map fun size => ⟨size, maxSizeBytes⟩)
  else ([.setIndexLen base maxSizeBytes], .ok ⟨file.length, maxSizeBytes⟩)

def Index.write (index : Index) (base offset position : Nat) : Except Failure (Index × List Write) :=
  if index.size + entireWidth > index.mapped then .error (.io .unexpectedEof "index is full")
  else .ok ({ index with size := index.size + entireWidth },
    [.copyOffset base index.size (toBytes offWidth offset),
      .copyPosition base (index.size + offWidth) (toBytes positionWidth position)])

def Index.read (index : Index) (content : Bytes) (off : Nat) : Except Failure (Nat × Nat) :=
  let start := off * entireWidth
  if start + entireWidth > index.size then .error (.io .unexpectedEof "offset bigger than index size")
  else if start + entireWidth > index.mapped then .error (.panic "range end index out of range for slice")
  else .ok (ofBytes (slice content start offWidth), ofBytes (slice content (start + offWidth) positionWidth))

def Index.currentOffset (index : Index) : Nat := index.size / entireWidth

structure Segment where
  baseOffset : Nat
  nextOffset : Nat
  store : Store
  index : Index
deriving DecidableEq, Repr

def Segment.new (cfg : Config) (dir : Dir) (baseOffset : Nat) : List Write × Except Failure Segment :=
  let store := Store.new (dir.store baseOffset)
  let (writes, opened) := Index.new cfg.maxSizeBytes baseOffset (dir.index baseOffset)
  (.createStore baseOffset :: .createIndex baseOffset :: writes, do
    let index ← opened
    let nextOffset ← if index.size > 0 then checkedAdd u64Max baseOffset index.currentOffset else pure baseOffset
    return ⟨baseOffset, nextOffset, store, index⟩)

-- `as u32` keeps the low 32 bits.
def Segment.relative (segment : Segment) (off : Nat) : Nat := (off - segment.baseOffset) % 2 ^ 32

def Segment.append (cfg : Config) (segment : Segment) (record : Bytes) : Segment × List Write × Except Failure Nat :=
  let position := segment.store.size
  let (store, chunks) := segment.store.append cfg.syncWrites record
  let writes := storeWrites segment.baseOffset chunks
  match segment.index.write segment.baseOffset (segment.relative segment.nextOffset) position with
  | .error failure => ({ segment with store := store }, writes, .error failure)
  | .ok (index, indexWrites) =>
      match checkedAdd u64Max segment.nextOffset 1 with
      | .error failure => ({ segment with store := store, index := index }, writes ++ indexWrites, .error failure)
      | .ok nextOffset =>
          ({ segment with store := store, index := index, nextOffset := nextOffset }, writes ++ indexWrites,
            .ok segment.nextOffset)

def Segment.isInRange (segment : Segment) (off : Nat) : Bool :=
  decide (segment.baseOffset ≤ off) && decide (segment.nextOffset > off)

def Segment.read (segment : Segment) (dir : Dir) (off : Nat) (buf : Bytes) :
    Segment × List Write × Bytes × Except Failure Unit :=
  if off < segment.baseOffset ∨ off ≥ segment.nextOffset then
    (segment, [], buf, .error (.io .invalidInput "offset out of range"))
  else
    match segment.index.read (dir.index segment.baseOffset) (segment.relative off) with
    | .error failure => (segment, [], buf, .error failure)
    | .ok (_, position) =>
        let (store, chunks) := segment.store.flush
        let writes := storeWrites segment.baseOffset chunks
        ({ segment with store := store }, writes, fetch ((dir.applyAll writes).store segment.baseOffset) position buf)

def Segment.isMaxed (cfg : Config) (segment : Segment) : Bool :=
  decide (segment.index.size ≥ cfg.maxSizeBytes) || decide (segment.store.size ≥ cfg.maxStoreBytes)

def Segment.close (segment : Segment) : Segment × List Write :=
  let (store, chunks) := segment.store.flush
  ({ segment with store := store },
    storeWrites segment.baseOffset chunks ++ [.setIndexLen segment.baseOffset segment.index.size])

structure Log where
  activeIndex : Nat
  segments : List Segment
deriving DecidableEq, Repr

def openSegments (cfg : Config) (dir : Dir) : List Nat → List Write × Except Failure (List Segment)
  | [] => ([], .ok [])
  | off :: rest =>
      match Segment.new cfg dir off with
      | (writes, .error failure) => (writes, .error failure)
      | (writes, .ok segment) =>
          let (more, opened) := openSegments cfg (dir.applyAll writes) rest
          (writes ++ more, opened.map (segment :: ·))

-- A directory that names no segment gets its first one.
def Log.new (cfg : Config) (dir : Dir) : List Write × Except Failure Log :=
  let offsets := if dir.bases = [] then [cfg.initalOffset] else dir.bases
  let (writes, opened) := openSegments cfg dir offsets
  (writes, opened.map fun segments => ⟨segments.length - 1, segments⟩)

def Log.append (cfg : Config) (log : Log) (dir : Dir) (record : Bytes) : Log × List Write × Except Failure Nat :=
  match log.segments[log.activeIndex]? with
  | none => (log, [], .error (.panic "index out of bounds"))
  | some active =>
      match active.append cfg record with
      | (active, writes, .error failure) =>
          ({ log with segments := log.segments.set log.activeIndex active }, writes, .error failure)
      | (active, writes, .ok off) =>
          let segments := log.segments.set log.activeIndex active
          if active.isMaxed cfg then
            match Segment.new cfg (dir.applyAll writes) (off + 1) with
            | (more, .error failure) => ({ log with segments := segments }, writes ++ more, .error failure)
            | (more, .ok segment) => (⟨log.activeIndex + 1, segments ++ [segment]⟩, writes ++ more, .ok off)
          else ({ log with segments := segments }, writes, .ok off)

def Log.read (log : Log) (dir : Dir) (off : Nat) (buf : Bytes) : Log × List Write × Bytes × Except Failure Unit :=
  let cur := log.segments.findIdx (·.isInRange off)
  match log.segments[cur]? with
  | none => (log, [], buf, .error (.io .unexpectedEof "offset out of range"))
  | some segment =>
      let (segment, writes, buf, result) := segment.read dir off buf
      ({ log with segments := log.segments.set cur segment }, writes, buf, result)

def Log.close (log : Log) : Log × List Write × Except Failure Unit :=
  let closed := (log.segments.take (log.activeIndex + 1)).map Segment.close
  (⟨log.activeIndex, closed.map Prod.fst ++ log.segments.drop (log.activeIndex + 1)⟩,
    closed.flatMap Prod.snd,
    if log.activeIndex < log.segments.length then .ok () else .error (.panic "index out of bounds"))

def Log.nextOffset (log : Log) : Except Failure Nat :=
  match log.segments[log.activeIndex]? with
  | none => .error (.panic "index out of bounds")
  | some active => .ok active.nextOffset

end RaftLog.SegmentLog
