import RaftLog.SegmentLog.Counting

set_option autoImplicit false

namespace RaftLog.SegmentLog

open Lib

def Config.limits (cfg : Config) (maxSizeBytes maxStoreBytes : Nat) : Config :=
  { cfg with maxSizeBytes := maxSizeBytes, maxStoreBytes := maxStoreBytes }

-- The directory of a log that has been closed.
def closedDir (system : System) (log : Log) : Dir := system.dir.applyAll log.close.2.1

-- Opened again, the log goes on where it ended and has every record.
def Reopens (later : Config) (system : System) (log : Log) : Prop :=
  ∃ again, (Log.new later (closedDir system log)).2 = .ok again ∧ again.nextOffset = log.nextOffset ∧
    ∀ off record, (off, record) ∈ system.acked → ∀ buf,
      (again.read ((closedDir system log).applyAll (Log.new later (closedDir system log)).1) off buf).2.2 = (record, .ok ())

section Down

variable (cfg : Config) (terms : Terms) (dir : Dir) (maxSizeBytes maxStoreBytes : Nat)

-- The files of an extent do not depend on the limits as long as its index fits.
theorem held_limits (extent : Extent) (held : Held cfg terms dir [] extent)
    (closed : (dir.index extent.base).length = entireWidth * extent.records.length)
    (fits : (dir.index extent.base).length ≤ maxSizeBytes) :
    Held (cfg.limits maxSizeBytes maxStoreBytes) terms dir [] extent where
  framed := held.framed
  indexed := held.indexed
  length := .inl closed
  room := closed ▸ fits
  fits := held.fits
  few := held.few
  offsets := held.offsets
  kept := held.kept

theorem down_limits (before : List Extent) (active : Extent) (down : Down cfg terms dir before active)
    (tidy : Tidy dir (before ++ [active])) (fits : ∀ base, (dir.index base).length ≤ maxSizeBytes) :
    Down (cfg.limits maxSizeBytes maxStoreBytes) terms dir before active where
  extents := down.extents
  held := by
    intro extent member
    exact held_limits cfg terms dir maxSizeBytes maxStoreBytes extent (down.held extent member) (tidy extent member) (fits _)
  listed := down.listed

end Down

section Closed

variable (cfg : Config) (system : System) (run : Run (machine cfg) (fun system action => orderly system action = true) system)
  (log : Log) (up : system.log = some log) (maxSizeBytes maxStoreBytes : Nat)

include run up

theorem limits_fit (fits : ∀ base, ((closedDir system log).index base).length ≤ maxSizeBytes) :
    Reopens (cfg.limits maxSizeBytes maxStoreBytes) system log := by
  obtain ⟨data, stands, tells⟩ := orderly_standing cfg system run
  rw [up] at stands
  have next := stands_next_offset cfg _ system.dir log data stands
  cases stands with
  | up _ before active opened =>
      obtain ⟨down, tidy⟩ := log_close_down cfg _ system.dir log before active opened
      have after := down_limits cfg _ _ maxSizeBytes maxStoreBytes _ _ down tidy fits
      obtain ⟨again, reopened⟩ := log_new_opens (cfg.limits maxSizeBytes maxStoreBytes) _ _ _ _ after fun extent member =>
        .inr ⟨tidy extent member, (down.held extent member).few.trans_lt (by decide)⟩
      have stands := stands_start (cfg.limits maxSizeBytes maxStoreBytes) _ _ _ (.down _ _ after) again reopened
      rw [← extents_of_snoc] at stands
      refine ⟨again, reopened, ?_, ?_⟩
      · rw [next]
        exact stands_next_offset (cfg.limits maxSizeBytes maxStoreBytes) _ _ again _ stands
      · intro off record member buf
        obtain ⟨number, rfl, found⟩ := tells.acked off record member
        exact stands_whole _ _ _ again _ stands rfl (by decide) number record buf found

theorem fit_limits (reopens : Reopens (cfg.limits maxSizeBytes maxStoreBytes) system log) :
    ∀ base, ((closedDir system log).index base).length ≤ maxSizeBytes := by
  intro base
  by_contra long
  rw [not_le] at long
  obtain ⟨data, stands, tells⟩ := orderly_standing cfg system run
  have none := not_cut cfg _ (fun _ _ _ cut => by cases cut) system run
  obtain ⟨_, numbered⟩ := tells.uncut none
  rw [up] at stands
  cases stands with
  | up _ before active opened =>
      obtain ⟨down, tidy⟩ := log_close_down cfg _ system.dir log before active opened
      obtain ⟨again, reopened, _, reads⟩ := reopens
      have present : (closedDir system log).has base := by
        by_contra absent
        rw [(absent_files _ base absent).2] at long
        cases long
      obtain ⟨extent, member, rfl⟩ := List.mem_map.mp (down_lists cfg _ _ _ _ down base present)
      have closed := tidy extent member
      have filled : 0 < extent.records.length := by
        rw [closedDir, closed] at long
        unfold entireWidth offWidth positionWidth at long
        omega
      have listing : Listing (cfg.limits maxSizeBytes maxStoreBytes) (closedDir system log)
          (before.map Prod.fst ++ [active.1]) :=
        ⟨down.extents.chained, extents_ascending _ _ _ down.extents, down_offsets cfg _ _ _ _ down,
          fun extent member => (down.held extent member).indexed, fun extent member => .inl (tidy extent member)⟩
      have counted := (log_new_counted _ _ _ listing again reopened).1
      -- the offset of the last record of the segment has been handed out
      have within := chained_within Extent.base Extent.records _ _ down.extents.chained extent member
      have next : extent.next = extent.base + extent.records.length := rfl
      have handed : extent.next - 1 ∈ system.acked.reverse.map Prod.fst := by
        rw [numbered, List.mem_range'_1, dataOf, List.length_map, extents_of_snoc]
        omega
      obtain ⟨⟨off, record⟩, told, rfl⟩ := List.mem_map.mp handed
      obtain ⟨segment, own, read⟩ := counted_read _ _ _ listing again counted extent member (extent.next - 1) (by omega) (by omega)
        ((closedDir system log).applyAll (Log.new (cfg.limits maxSizeBytes maxStoreBytes) (closedDir system log)).1) []
      rw [reads _ record (List.mem_reverse.mp told) [], read_cut _ extent segment own filled
        ((down.held extent member).few.trans (by decide)) _ _ (by rw [← closed]; exact long)] at read
      cases read

-- For runs in which no segment comes to hold 2^32 records.
theorem limits_changed_iff : Reopens (cfg.limits maxSizeBytes maxStoreBytes) system log ↔
    ∀ base, ((closedDir system log).index base).length ≤ maxSizeBytes :=
  ⟨fit_limits cfg system run log up maxSizeBytes maxStoreBytes, limits_fit cfg system run log up maxSizeBytes maxStoreBytes⟩

end Closed

theorem indexes_fit (dir : Dir) (most : Nat) (all : ∀ entry ∈ dir.indexes.entries, entry.2.length ≤ most) (base : Nat) :
    (dir.index base).length ≤ most := by
  rw [Dir.index]
  cases found : dir.indexes.lookup base with
  | none => exact Nat.zero_le _
  | some content => exact all ⟨base, content⟩ (AList.mem_lookup_iff.mp found)

def twoRecords : List Action := [.start, .append [1], .append [2]]

def twoRecordsLog : Log := ((systemAfter (smallConfig true 3) orderly twoRecords).log).getD ⟨0, []⟩

-- Two slots are as many as the segment has.
theorem two_records_fit :
    Reopens ((smallConfig true 3).limits (2 * entireWidth) 8) (systemAfter (smallConfig true 3) orderly twoRecords)
      twoRecordsLog :=
  (limits_changed_iff (smallConfig true 3) (systemAfter (smallConfig true 3) orderly twoRecords)
    (system_after_run _ _ _ (by decide +kernel)) twoRecordsLog (by decide +kernel) (2 * entireWidth) 8).mpr
    (indexes_fit _ _ (by decide +kernel))

-- With one slot the second record is behind the end of the map.
theorem second_record_cut :
    ¬ ∀ system, Reachable (machine (smallConfig true 3)) system → ∀ log, system.log = some log →
      ∀ maxSizeBytes maxStoreBytes, entireWidth ≤ maxSizeBytes →
        Reopens ((smallConfig true 3).limits maxSizeBytes maxStoreBytes) system log := by
  intro always
  have reach := run_reachable _ _ _ (system_after_run (smallConfig true 3) orderly twoRecords (by decide +kernel))
  obtain ⟨again, opened, _, reads⟩ := always _ reach twoRecordsLog (by decide +kernel) entireWidth 8 le_rfl
  have told : (Log.new ((smallConfig true 3).limits entireWidth 8)
      (closedDir (systemAfter (smallConfig true 3) orderly twoRecords) twoRecordsLog)).2.map (fun again =>
        (again.read ((closedDir (systemAfter (smallConfig true 3) orderly twoRecords) twoRecordsLog).applyAll
          (Log.new ((smallConfig true 3).limits entireWidth 8)
            (closedDir (systemAfter (smallConfig true 3) orderly twoRecords) twoRecordsLog)).1) 2 []).2.2.2) =
      .ok (.error (.panic "range end index out of range for slice")) := by decide +kernel
  rw [opened] at told
  have failed := Except.ok.inj told
  dsimp only at failed
  rw [reads 2 [2] (by decide +kernel) []] at failed
  cases failed

end RaftLog.SegmentLog
