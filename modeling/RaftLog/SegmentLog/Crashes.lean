import RaftLog.SegmentLog.ReadBack

set_option autoImplicit false

namespace RaftLog.SegmentLog

open Lib

-- Crashes at which no half-written slot is left behind, in segments whose entries can be
-- counted again.
def survivable (cfg : Config) (system : System) : Action → Bool
  | .append _ => system.log.all (·.roomFor (recoverableLimit cfg))
  | .cutAppend record count => system.log.all fun log =>
      log.roomFor (recoverableLimit cfg) &&
        (match log.nextOffset with
          | .ok next => decide (next < u64Max)
          | .error _ => true) &&
        (log.append cfg system.dir record).2.1[count]?.all (!·.torn)
  | _ => true

theorem recoverable_limit_narrow (cfg : Config) : recoverableLimit cfg ≤ 2 ^ 32 := by
  unfold recoverableLimit
  split
  · omega
  · omega

theorem survivable_permits (cfg : Config) (synced : cfg.syncWrites = true) (system : System) (action : Action)
    (meets : survivable cfg system action = true) : Permits cfg ⟨recoverableLimit cfg, true⟩ system action := by
  cases action with
  | append record =>
      intro log up
      rw [survivable, up] at meets
      exact meets
  | crash => exact fun _ _ => .inl synced
  | cutAppend record count =>
      intro log up
      simp only [survivable, up, Option.all_some, Bool.and_eq_true] at meets
      obtain ⟨⟨room, offsets⟩, safe⟩ := meets
      refine ⟨synced, room, ?_, ?_⟩
      · intro next here
        rw [here] at offsets
        exact of_decide_eq_true offsets
      · intro write found
        rw [found, Option.all_some] at safe
        simpa using safe
  | start | read | close => trivial

structure CrashConsistent (cfg : Config) (system : System) : Prop where
  opens : system.log = none → Opens cfg system.dir
  acked : ∀ log, system.log = some log → ∀ off record, (off, record) ∈ system.acked → ∀ buf,
    (log.read system.dir off buf).2.2 = (record, .ok ())
  next : ∀ log, system.log = some log → ∃ next, log.nextOffset = .ok next ∧
    cfg.initalOffset + system.acked.length ≤ next ∧ next ≤ cfg.initalOffset + system.acked.length + system.cut ∧
    ∀ off, cfg.initalOffset ≤ off → off < next → ∃ record, system.attempts.lookup off = some record ∧
      ∀ buf, (log.read system.dir off buf).2.2 = (record, .ok ())

theorem crash_consistent (cfg : Config) (synced : cfg.syncWrites = true) (system : System)
    (run : Run (machine cfg) (fun system action => survivable cfg system action = true) system) :
    CrashConsistent cfg system := by
  obtain ⟨data, stands, tells⟩ := standing_run cfg ⟨recoverableLimit cfg, true⟩ system
    (run_weaken (machine cfg) _ _ (survivable_permits cfg synced) system run)
  have reads : ∀ log, system.log = some log → ∀ number record, data[number]? = some record → ∀ buf,
      (log.read system.dir (cfg.initalOffset + number) buf).2.2 = (record, .ok ()) := by
    intro log up number record found buf
    rw [up] at stands
    exact stands_whole cfg _ system.dir log data stands rfl (recoverable_limit_narrow cfg) number record buf found
  refine ⟨?_, ?_, ?_⟩
  · intro down
    rw [down] at stands
    exact stands_opens cfg _ system.dir data stands le_rfl
  · intro log up off record member buf
    obtain ⟨number, rfl, found⟩ := tells.acked off record member
    exact reads log up number record found buf
  · intro log up
    rw [up] at stands
    have fewer := tells.fewer
    have more := tells.more
    refine ⟨_, stands_next_offset cfg _ system.dir log data stands, by omega, by omega, ?_⟩
    intro off least most
    obtain ⟨number, rfl⟩ := Nat.exists_eq_add_of_le least
    have found : data[number]? = some data[number] := List.getElem?_eq_getElem (by omega)
    exact ⟨_, tells.attempted number _ found, reads log up number _ found⟩

-- The second append dies between the record and its slot, the third has both copies.
def cutTwice : List Action :=
  [.start, .append [1], .cutAppend [2] 1, .start, .cutAppend [3] 3, .start, .append [4]]

theorem consistent_after_cuts :
    (systemAfter (smallConfig true 3) (survivable (smallConfig true 3)) cutTwice).acked = [(3, [4]), (1, [1])] ∧
      CrashConsistent (smallConfig true 3) (systemAfter (smallConfig true 3) (survivable (smallConfig true 3)) cutTwice) :=
  ⟨by decide +kernel, crash_consistent _ rfl _ (system_after_run _ _ _ (by decide +kernel))⟩

-- The process dies between the two copies of the first slot.
def halfSlot : List Action := [.start, .cutAppend [1] 2, .start]

theorem half_slot_unreadable :
    ¬ ∀ system, Reachable (machine (smallConfig true 3)) system → CrashConsistent (smallConfig true 3) system := by
  intro always
  have reach := exec_reaches (machine (smallConfig true 3)) halfSlot fresh fresh (.start fresh rfl) (by decide +kernel)
  have told : ((exec (machine (smallConfig true 3)) fresh halfSlot).getD fresh).log.map (fun log =>
      (log.nextOffset, (log.read ((exec (machine (smallConfig true 3)) fresh halfSlot).getD fresh).dir 1 []).2.2.2)) =
        some (.ok 2, .error (.io .unexpectedEof "failed to fill whole buffer")) := by decide +kernel
  obtain ⟨log, up, same⟩ := Option.map_eq_some_iff.mp told
  obtain ⟨here, refused⟩ := Prod.mk.inj same
  obtain ⟨next, there, _, _, between⟩ := (always _ reach).next log up
  rw [here] at there
  cases there
  obtain ⟨record, _, read⟩ := between 1 le_rfl (by decide)
  rw [read []] at refused
  cases refused

-- Crashes between two operations that find nothing in the active segment's buffer.
def settled (system : System) : Action → Bool
  | .append _ => system.log.all (·.roomFor (2 ^ 32))
  | .crash => system.log.all fun log => log.active?.all (·.store.buffer.isEmpty)
  | .cutAppend _ _ => false
  | _ => true

theorem settled_permits (cfg : Config) (system : System) (action : Action) (meets : settled system action = true) :
    Permits cfg ⟨2 ^ 32, false⟩ system action := by
  cases action with
  | append record =>
      intro log up
      rw [settled, up] at meets
      exact meets
  | crash =>
      intro log up
      rw [settled, up] at meets
      exact .inr ⟨rfl, meets⟩
  | cutAppend => cases meets
  | start | read | close => trivial

def OwnRecords (system : System) : Prop := ∀ log, system.log = some log → ∀ off buf,
  (∃ kind message, (log.read system.dir off buf).2.2.2 = .error (.io kind message)) ∨
    ∃ record, system.acked.lookup off = some record ∧ (log.read system.dir off buf).2.2 = (record, .ok ())

theorem own_records (cfg : Config) (system : System)
    (run : Run (machine cfg) (fun system action => settled system action = true) system) : OwnRecords system := by
  intro log up off buf
  obtain ⟨data, stands, tells⟩ := standing_run cfg ⟨2 ^ 32, false⟩ system
    (run_weaken (machine cfg) _ _ (settled_permits cfg) system run)
  rw [up] at stands
  have none := not_cut cfg _ (fun _ _ _ cut => by cases cut) system run
  by_cases outside : off < cfg.initalOffset ∨ cfg.initalOffset + data.length ≤ off
  · exact .inl ⟨_, _, stands_outside cfg _ system.dir log data stands off buf outside⟩
  obtain ⟨number, rfl⟩ := Nat.exists_eq_add_of_le (Nat.le_of_not_lt fun before => outside (.inl before))
  have found : data[number]? = some data[number] := List.getElem?_eq_getElem (by omega)
  rcases stands_reads cfg _ system.dir log data stands le_rfl number _ buf found with read | ⟨refused, _⟩
  · have attempted := tells.attempted number _ found
    rw [(tells.uncut none).1] at attempted
    exact .inr ⟨_, attempted, read⟩
  · exact .inl refused

-- The first segment's last bytes go with the crash, the second one's are flushed by a read.
def lostBehind : List Action :=
  [.start, .append [1], .append [2], .append [3], .read 3 [], .crash, .start, .append [4]]

theorem own_records_behind :
    (systemAfter (smallConfig false 2) settled lostBehind).acked = [(4, [4]), (3, [3]), (2, [2]), (1, [1])] ∧
      OwnRecords (systemAfter (smallConfig false 2) settled lostBehind) :=
  ⟨by decide +kernel, own_records _ _ (system_after_run _ _ _ (by decide +kernel))⟩

-- The slot of the first record outlives it, and the second one takes its place.
def unsynced : List Action := [.start, .append [1], .crash, .start, .append [2]]

theorem replaced_record :
    ¬ ∀ system, Reachable (machine (smallConfig false 3)) system → OwnRecords system := by
  intro always
  have reach := exec_reaches (machine (smallConfig false 3)) unsynced fresh fresh (.start fresh rfl) (by decide +kernel)
  have told : ((exec (machine (smallConfig false 3)) fresh unsynced).getD fresh).log.map (fun log =>
      (log.read ((exec (machine (smallConfig false 3)) fresh unsynced).getD fresh).dir 1 []).2.2) =
        some ([2], .ok ()) := by decide +kernel
  have handed : ((exec (machine (smallConfig false 3)) fresh unsynced).getD fresh).acked.lookup 1 = some [1] := by
    decide +kernel
  obtain ⟨log, up, same⟩ := Option.map_eq_some_iff.mp told
  rcases always _ reach log up 1 [] with ⟨_, _, refused⟩ | ⟨record, acked, read⟩
  · rw [same] at refused
    cases refused
  · rw [handed] at acked
    cases acked
    rw [same] at read
    cases read

end RaftLog.SegmentLog
