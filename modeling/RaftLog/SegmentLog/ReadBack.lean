import RaftLog.SegmentLog.Runs

set_option autoImplicit false

namespace RaftLog.SegmentLog

open Lib

section Reads

variable (cfg : Config) (terms : Terms) (dir : Dir) (log : Log) (data : List Bytes)
  (stands : Stands cfg terms dir (some log) data)

include stands

theorem stands_reads (narrow : terms.limit ≤ 2 ^ 32) (number : Nat) (record buf : Bytes) (found : data[number]? = some record) :
    (log.read dir (cfg.initalOffset + number) buf).2.2 = (record, .ok ()) ∨
      (∃ kind message, (log.read dir (cfg.initalOffset + number) buf).2.2.2 = .error (.io kind message)) ∧
        terms.whole = false := by
  cases stands with
  | up _ before active up =>
      rw [dataOf, List.getElem?_map, Option.map_eq_some_iff] at found
      obtain ⟨⟨position, _⟩, entry, rfl⟩ := found
      exact log_reads cfg terms dir log before active up narrow number position _ buf entry

theorem stands_outside (off : Nat) (buf : Bytes) (outside : off < cfg.initalOffset ∨ cfg.initalOffset + data.length ≤ off) :
    (log.read dir off buf).2.2.2 = .error (.io .unexpectedEof "offset out of range") := by
  cases stands with
  | up _ before active up =>
      rw [dataOf, List.length_map] at outside
      rw [log_read_outside cfg terms dir log before active up off buf outside]

theorem stands_whole (whole : terms.whole = true) (narrow : terms.limit ≤ 2 ^ 32) (number : Nat) (record buf : Bytes)
    (found : data[number]? = some record) : (log.read dir (cfg.initalOffset + number) buf).2.2 = (record, .ok ()) := by
  rcases stands_reads cfg terms dir log data stands narrow number record buf found with read | ⟨_, partly⟩
  · exact read
  · rw [whole] at partly
    cases partly

end Reads

-- Runs without a crash, in which no segment comes to hold 2^32 records.
def orderly (system : System) : Action → Bool
  | .append _ => system.log.all (·.roomFor u32Max)
  | .crash | .cutAppend _ _ => false
  | _ => true

theorem orderly_permits (cfg : Config) (system : System) (action : Action) (orderly : orderly system action = true) :
    Permits cfg ⟨u32Max, true⟩ system action := by
  cases action with
  | append record =>
      intro log up
      rw [SegmentLog.orderly, up] at orderly
      exact orderly
  | crash | cutAppend => cases orderly
  | start | read | close => trivial

structure ReadsBack (cfg : Config) (system : System) : Prop where
  opens : system.log = none → Opens cfg system.dir
  consecutive : system.acked.reverse.map Prod.fst = List.range' cfg.initalOffset system.acked.length
  reads : ∀ log, system.log = some log → ∀ off record, (off, record) ∈ system.acked → ∀ buf,
    (log.read system.dir off buf).2.2 = (record, .ok ())
  outside : ∀ log, system.log = some log → ∃ next, log.nextOffset = .ok next ∧
    ∀ off, off < cfg.initalOffset ∨ next ≤ off → ∀ buf, ∃ kind message,
      (log.read system.dir off buf).2.2.2 = .error (.io kind message)

theorem not_cut (cfg : Config) (allowed : System → Action → Prop)
    (never : ∀ system record count, ¬ allowed system (.cutAppend record count)) (system : System)
    (run : Run (machine cfg) allowed system) : system.cut = 0 := by
  apply run_invariant (machine cfg) allowed (fun system => system.cut = 0) ?_ ?_ system run
  · rintro _ rfl
    rfl
  · intro system action next _ none meets moves
    cases step_cases cfg system next action moves with
    | started | appended | refused | read | closed | crashed => exact none
    | cut _ _ record count => exact absurd meets (never system record count)

theorem empty_opens (cfg : Config) : Opens cfg emptyDir :=
  stands_opens cfg ⟨0, true⟩ emptyDir [] (empty_stands cfg ⟨0, true⟩) (Nat.zero_le _)

theorem orderly_standing (cfg : Config) (system : System)
    (run : Run (machine cfg) (fun system action => orderly system action = true) system) :
    ∃ data, Standing cfg ⟨u32Max, true⟩ system data := by
  apply standing_run cfg ⟨u32Max, true⟩ system
  exact run_weaken (machine cfg) _ _ (orderly_permits cfg) system run

theorem orderly_opens (cfg : Config) (system : System)
    (run : Run (machine cfg) (fun system action => orderly system action = true) system) :
    system.log = none → Opens cfg system.dir := by
  apply run_invariant (machine cfg) _ (fun system => system.log = none → Opens cfg system.dir) ?_ ?_ system run
  · rintro _ rfl _
    exact empty_opens cfg
  · intro system action next before _ meets moves down
    cases step_cases cfg system next action moves with
    | started | appended | refused | read => cases down
    | closed log up =>
        obtain ⟨data, standing⟩ := orderly_standing cfg system before
        have stands := standing.stands
        rw [up] at stands
        exact close_opens cfg ⟨u32Max, true⟩ system.dir log data stands (by decide)
    | crashed | cut => cases meets

theorem reads_back (cfg : Config) (system : System)
    (run : Run (machine cfg) (fun system action => orderly system action = true) system) : ReadsBack cfg system := by
  obtain ⟨data, stands, tells⟩ := orderly_standing cfg system run
  have none := not_cut cfg _ (fun _ _ _ cut => by cases cut) system run
  have length : system.acked.length = data.length := by
    have more := tells.more
    rw [none, Nat.add_zero] at more
    exact Nat.le_antisymm tells.fewer more
  refine ⟨orderly_opens cfg system run, ?_, ?_, ?_⟩
  · rw [length]
    exact (tells.uncut none).2
  · intro log up off record member buf
    rw [up] at stands
    obtain ⟨number, rfl, found⟩ := tells.acked off record member
    exact stands_whole cfg ⟨u32Max, true⟩ system.dir log data stands rfl (by decide) number record buf found
  · intro log up
    rw [up] at stands
    refine ⟨_, stands_next_offset cfg _ system.dir log data stands, ?_⟩
    intro off outside buf
    exact ⟨_, _, stands_outside cfg _ system.dir log data stands off buf outside⟩

-- With two records to a segment the log is closed and opened again behind the rotation.
def smallConfig (syncWrites : Bool) (slots : Nat) : Config := ⟨1, syncWrites, entireWidth * slots, 1024⟩

def reopened : List Action := [.start, .append [1], .append [2, 3], .append [4], .close, .start, .append [5]]

def systemAfter (cfg : Config) (allowed : System → Action → Bool) (actions : List Action) : System :=
  (execWhen (machine cfg) allowed fresh actions).getD fresh

theorem system_after_run (cfg : Config) (allowed : System → Action → Bool) (actions : List Action)
    (runs : (execWhen (machine cfg) allowed fresh actions).isSome = true) :
    Run (machine cfg) (fun system action => allowed system action = true) (systemAfter cfg allowed actions) :=
  exec_when_reaches (machine cfg) _ allowed (fun _ _ meets => meets) actions fresh fresh (.start fresh rfl) runs

theorem reads_back_reopened :
    (systemAfter (smallConfig false 2) orderly reopened).acked = [(4, [5]), (3, [4]), (2, [2, 3]), (1, [1])] ∧
      ReadsBack (smallConfig false 2) (systemAfter (smallConfig false 2) orderly reopened) :=
  ⟨by decide +kernel, reads_back _ _ (system_after_run _ _ _ (by decide +kernel))⟩

end RaftLog.SegmentLog
