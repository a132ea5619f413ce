import RaftLog.Runtime.Writing
import RaftLog.SegmentLog.Rotation

set_option autoImplicit false

namespace RaftLog.Drive

open Lib Replication

def commandOf (number : Nat) : Bytes := if number = 0 then [1] else [2]

def recordOf (number : Nat) : Bytes := [0x10, 7, 0x1A, 1] ++ commandOf number

def writeOf (number : Nat) : Message := ⟨commandOf number, number⟩

theorem short_record (number : Nat) : shortCodec.encode ⟨7, commandOf number⟩ = .ok (recordOf number) ∧
    shortCodec.decode (recordOf number) = .ok ⟨7, commandOf number⟩ ∧ (frame SegmentLog.lengthWidth (recordOf number)).length = 13 := by
  rw [recordOf, commandOf]
  split
  · exact ⟨rfl, rfl, rfl⟩
  · exact ⟨rfl, rfl, rfl⟩

-- The first segment takes more than 2^32 records.
structure WideConfig (cfg : SegmentLog.Config) : Prop where
  initalOffset : cfg.initalOffset = 1
  slots : SegmentLog.entireWidth * 2 ^ 33 ≤ cfg.maxSizeBytes
  bytes : 13 * 2 ^ 33 ≤ cfg.maxStoreBytes

def wideTerms : SegmentLog.Terms := ⟨2 ^ 33, true⟩

-- All records are in one segment.
def Sole (cfg : SegmentLog.Config) (state : Backing) (count : Nat) : Prop :=
  ∃ active, SegmentLog.Up cfg wideTerms state.dir state.log [] active ∧
    active.1.records.map Prod.snd = (List.range count).map recordOf ∧ active.2.store.size = 13 * count

theorem sole_of (cfg : SegmentLog.Config) (dir : SegmentLog.Dir) (log : SegmentLog.Log) (given : List Bytes) (count : Nat)
    (active : SegmentLog.Extent × SegmentLog.Segment) (up : SegmentLog.Up cfg wideTerms dir log [] active)
    (records : active.1.records.map Prod.snd = (List.range count).map recordOf) (size : active.2.store.size = 13 * count) :
    Sole cfg ⟨dir, log, given⟩ count := ⟨active, up, records, size⟩

section Sole

variable (cfg : SegmentLog.Config) (wide : WideConfig cfg) (state : Backing) (count : Nat) (sole : Sole cfg state count)
  (few : count ≤ 2 ^ 32)

include sole few

theorem sole_fits : state.log.fits (recordOf count) = true := by
  obtain ⟨active, up, _, size⟩ := sole
  rw [SegmentLog.Log.fits, SegmentLog.Log.active?, SegmentLog.up_active _ _ _ _ _ _ up, Option.all_some, size,
    (short_record count).2.2]
  apply decide_eq_true
  unfold SegmentLog.i64Max
  omega

include wide

theorem sole_appends : ∃ later, (backed cfg shortCodec).append state (recordOf count) = .ok (later, .ok (count + 1)) ∧
    Sole cfg later (count + 1) ∧ later.given = state.given := by
  have fits := sole_fits cfg state count sole few
  obtain ⟨active, up, records, size⟩ := sole
  have bound := SegmentLog.up_fits cfg wideTerms state.dir state.log [] active (recordOf count) up fits
  have length : active.1.records.length = count := by
    have same := congrArg List.length records
    rwa [List.length_map, List.length_map, List.length_range] at same
  have next : active.1.next = count + 1 := by
    have chained := (chained_last SegmentLog.Extent.base SegmentLog.Extent.records _ [] active.1).mp up.extents.chained
    rw [SegmentLog.Extent.next, length, chained.2, wide.initalOffset, Nat.add_comm]
    rfl
  have slots := wide.slots
  have bytes := wide.bytes
  have room : ¬ SegmentLog.Full cfg active.1 := by
    rw [SegmentLog.Full, length]
    unfold SegmentLog.entireWidth SegmentLog.offWidth SegmentLog.positionWidth at slots ⊢
    omega
  have offsets : active.1.next < u64Max := by
    rw [next]
    unfold u64Max
    omega
  have limit : active.1.records.length < wideTerms.limit := by
    rw [length]
    exact few.trans_lt (by decide)
  have grown : (active.2.added cfg (recordOf count)).store.size = 13 * count + 13 := by
    rw [SegmentLog.Segment.added, SegmentLog.Segment.stored, SegmentLog.stored_size, size, (short_record count).2.2]
  have notMaxed : (active.2.added cfg (recordOf count)).isMaxed cfg = false := by
    have index : (active.2.added cfg (recordOf count)).index.size = SegmentLog.entireWidth * count + SegmentLog.entireWidth := by
      rw [SegmentLog.Segment.added, (SegmentLog.up_active_loaded cfg wideTerms state.dir state.log [] active up).index, length]
    rw [SegmentLog.Segment.isMaxed, index, grown, Bool.or_eq_false_iff, decide_eq_false_iff_not, decide_eq_false_iff_not]
    unfold SegmentLog.entireWidth SegmentLog.offWidth SegmentLog.positionWidth at slots ⊢
    omega
  have kept := SegmentLog.log_append_kept cfg wideTerms state.dir state.log [] active (recordOf count) up room offsets notMaxed
  have added := SegmentLog.added_up cfg wideTerms state.dir state.log [] active (recordOf count) up bound room limit offsets
  have more : (active.1.add active.2.store.size (recordOf count)).records.map Prod.snd = (List.range (count + 1)).map recordOf := by
    rw [SegmentLog.Extent.add, List.map_append, records, List.range_succ, List.map_append]
    rfl
  have later := sole_of cfg _ _ state.given (count + 1) _ added more (by rw [grown, Nat.mul_succ])
  refine ⟨_, ?_, later, rfl⟩
  simp only [backed, kept, next]

omit sole few in
-- The slot of record 2^32 is that of record 0.
theorem sole_reads (later : Backing) (grown : Sole cfg later (count + 1)) :
    (later.log.read later.dir (count + 1) []).2.2 = (recordOf (count % 2 ^ 32), .ok ()) ∧
      Sole cfg (later.afterRead (count + 1) []) (count + 1) := by
  obtain ⟨active, up, records, size⟩ := grown
  have length : active.1.records.length = count + 1 := by
    have same := congrArg List.length records
    rwa [List.length_map, List.length_map, List.length_range] at same
  have record : (active.1.records.map Prod.snd)[count % 2 ^ 32]? = some (recordOf (count % 2 ^ 32)) := by
    rw [records, List.getElem?_map, List.getElem?_range (Nat.lt_succ_of_le (Nat.mod_le _ _))]
    rfl
  rw [List.getElem?_map, Option.map_eq_some_iff] at record
  obtain ⟨⟨position, bytes⟩, found, same⟩ := record
  obtain ⟨read, after⟩ := SegmentLog.sole_read cfg wideTerms later.dir later.log active up count position bytes []
    (by rw [length]; exact Nat.lt_succ_self count) found
  rw [wide.initalOffset, Nat.add_comm] at read after
  refine ⟨read.trans (by rw [← same]), ?_⟩
  rw [Backing.afterRead]
  exact sole_of cfg _ _ later.given (count + 1) _ after records size

end Sole

def wideService (cfg : SegmentLog.Config) : Machine Service Message := served cfg shortCodec nodeA [nodeA] ⟨7, none⟩

-- Writes 0, 1, 2 and so on have been handled.
structure Wide (cfg : SegmentLog.Config) (service : Service) (count : Nat) : Prop where
  alone : Alone service.runtime.raft
  quiet : service.runtime.operations = ∅
  leader : service.runtime.raft.role = .leader
  term : service.runtime.raft.currentTerm = 7
  ids : service.runtime.nextOperationId = count + 1
  applied : service.runtime.raft.lastApplied = count
  sole : Sole cfg service.runtime.world count
  given : service.runtime.world.given = ((List.range count).map fun number => commandOf (number % 2 ^ 32)).reverse
  accepted : service.accepted = ((List.range count).map commandOf).reverse

section Wide

variable (cfg : SegmentLog.Config) (wide : WideConfig cfg)

theorem wide_start : ∃ service, (wideService cfg).start service ∧ Wide cfg service 0 := by
  have fresh := SegmentLog.segment_new_fresh cfg SegmentLog.emptyDir cfg.initalOffset (by rintro (store | index) <;> contradiction)
  have opened : (SegmentLog.Log.new cfg SegmentLog.emptyDir).2 = .ok
      ⟨0, [⟨cfg.initalOffset, cfg.initalOffset, ⟨0, []⟩, ⟨0, cfg.maxSizeBytes⟩⟩]⟩ := by
    have none : SegmentLog.emptyDir.bases = [] := rfl
    cases same : SegmentLog.Segment.new cfg SegmentLog.emptyDir cfg.initalOffset with
    | mk writes result =>
        rw [same] at fresh
        cases fresh
        rw [SegmentLog.Log.new, if_pos none, SegmentLog.openSegments, same]
        rfl
  obtain ⟨pairs, active, first, records, up⟩ := SegmentLog.log_new_up cfg wideTerms SegmentLog.emptyDir [] _
    (SegmentLog.empty_down cfg wideTerms) _ opened
  obtain rfl := List.map_eq_nil_iff.mp first
  have segment := List.singleton_inj.mp up.segments
  refine ⟨_, ⟨_, cfg.initalOffset, opened, rfl, rfl⟩, ?_⟩
  constructor
  case alone => exact new_alone nodeA [nodeA] cfg.initalOffset ⟨7, none⟩ .leader fun _ => List.mem_singleton
  case quiet => rfl
  case leader => rfl
  case term => rfl
  case ids => rfl
  case applied => rfl
  case sole => exact sole_of cfg _ _ [] 0 active up (by rw [records]; rfl) (by rw [← segment])
  case given => rfl
  case accepted => rfl

include wide

theorem wide_step (service : Service) (count : Nat) (here : Wide cfg service count) (few : count ≤ 2 ^ 32) :
    ∃ next, (wideService cfg).step service (writeOf count) = some next ∧ Wide cfg next (count + 1) := by
  have entry : entryOf service.runtime (writeOf count) = ⟨7, commandOf count⟩ := by
    rw [entryOf, here.term]
    rfl
  have encodes : shortCodec.encode (entryOf service.runtime (writeOf count)) = .ok (recordOf count) := by
    rw [entry]
    exact (short_record count).1
  have fits : storable shortCodec service.runtime (writeOf count) = true := by
    rw [storable, encodes]
    exact sole_fits cfg service.runtime.world count here.sole few
  have ids : service.runtime.nextOperationId < u64Max := by
    rw [here.ids]
    unfold u64Max
    omega
  obtain ⟨later, appended, grown, given⟩ := sole_appends cfg wide service.runtime.world count here.sole few
  obtain ⟨read, after⟩ := sole_reads cfg wide count later grown
  have ends := write_applies cfg shortCodec service.runtime (writeOf count) here.leader (recordOf count) encodes later
    (by rw [here.applied]; exact appended) (by rw [here.applied, ← here.ids]; exact ids) (recordOf (count % 2 ^ 32))
    (by rw [here.applied]; exact read) ⟨7, commandOf (count % 2 ^ 32)⟩ (short_record _).2.1
  refine ⟨_, serve_ends cfg shortCodec service (writeOf count) here.alone here.quiet ids fits _ ends, ?_⟩
  have alone := committed_alone service.runtime.raft
    (localEntry service.runtime (service.runtime.raft.lastApplied + 1)) here.alone
  have accepted := accepted_ok service.runtime (written service.runtime (writeOf count)
    (later.afterRead (service.runtime.raft.lastApplied + 1) []) (recordOf (count % 2 ^ 32)) ⟨7, commandOf (count % 2 ^ 32)⟩)
    service.handled (writeOf count) rfl
  constructor
  case alone => exact ⟨alone.voters, alone.member, alone.learners⟩
  case quiet => rfl
  case leader => exact here.leader
  case term => exact here.term
  case ids => exact congrArg (· + 1) here.ids
  case applied => exact congrArg (· + 1) here.applied
  case sole =>
    have kept : Sole cfg (later.afterRead (service.runtime.raft.lastApplied + 1) []) (count + 1) := by
      rw [here.applied]
      exact after
    exact kept
  case given =>
    rw [List.range_succ, List.map_append, List.reverse_append, ← here.given, ← given]
    rfl
  case accepted =>
    rw [accepted, List.range_succ, List.map_append, List.reverse_append, ← here.accepted]
    rfl

theorem wide_run (count : Nat) (few : count ≤ 2 ^ 32 + 1) :
    ∃ service, Reachable (wideService cfg) service ∧ Wide cfg service count := by
  induction count with
  | zero =>
      obtain ⟨service, starts, here⟩ := wide_start cfg
      exact ⟨service, .start service starts, here⟩
  | succ count ih =>
      obtain ⟨service, reach, here⟩ := ih (Nat.le_of_succ_le few)
      obtain ⟨next, moves, there⟩ := wide_step cfg wide service count here (Nat.le_of_succ_le_succ few)
      exact ⟨next, .step service next (writeOf count) reach trivial moves, there⟩

end Wide

def wideConfig : SegmentLog.Config := ⟨1, true, SegmentLog.entireWidth * 2 ^ 33, 13 * 2 ^ 33⟩

-- Record 2^32 is read back as record 0, and the FSM is given its command again.
theorem first_command_again :
    ¬ ∀ service, Reachable (served wideConfig shortCodec nodeA [nodeA] ⟨7, none⟩) service → EndToEnd shortCodec service := by
  intro always
  obtain ⟨service, reach, here⟩ := wide_run wideConfig ⟨rfl, le_rfl, le_rfl⟩ (2 ^ 32 + 1) le_rfl
  have given := (always service reach).given
  rw [here.given, here.accepted, List.reverse_inj, List.range_succ, List.map_append, List.map_append] at given
  obtain ⟨_, last⟩ := List.append_inj' given rfl
  rw [List.map_singleton, List.map_singleton, Nat.mod_self] at last
  exact absurd last (by decide)

end RaftLog.Drive
