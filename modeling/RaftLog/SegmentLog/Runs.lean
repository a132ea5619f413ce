import RaftLog.SegmentLog.Sessions

set_option autoImplicit false

namespace RaftLog.SegmentLog

open Lib

-- A log directory, the process that has it open, and what was told to the callers:
-- the appends that returned Ok, every append that was begun to some effect, newest
-- first, and how many of them a crash has cut off.
structure System where
  dir : Dir
  log : Option Log
  acked : List (Nat × Bytes)
  attempts : List (Nat × Bytes)
  cut : Nat

inductive Action where
  | start
  | append (record : Bytes)
  | read (off : Nat) (buf : Bytes)
  | close
  | crash
  | cutAppend (record : Bytes) (count : Nat)
deriving DecidableEq, Repr

-- A run ends where a thread unwinds or the file system would report an error.
def step (cfg : Config) (system : System) : Action → Option System
  | .start =>
      match system.log with
      | some _ => none
      | none =>
          match Log.new cfg system.dir with
          | (writes, .ok log) => some { system with dir := system.dir.applyAll writes, log := some log }
          | (_, .error _) => none
  | .append record => system.log.bind fun log =>
      if log.fits record then
        match log.append cfg system.dir record with
        | (next, writes, .ok off) => some { system with
            dir := system.dir.applyAll writes, log := some next
            acked := (off, record) :: system.acked, attempts := (off, record) :: system.attempts }
        | (next, writes, .error (.io _ _)) => some { system with dir := system.dir.applyAll writes, log := some next }
        | (_, _, .error (.panic _)) => none
      else none
  | .read off buf => system.log.bind fun log =>
      let (next, writes, _, _) := log.read system.dir off buf
      some { system with dir := system.dir.applyAll writes, log := some next }
  | .close => system.log.bind fun log =>
      some { system with dir := system.dir.applyAll log.close.2.1, log := none }
  | .crash => system.log.bind fun _ => some { system with log := none }
  -- the process dies before the write number `count`
  | .cutAppend record count => system.log.bind fun log =>
      match log.nextOffset with
      | .error _ => none
      | .ok off =>
          if log.fits record then
            some { system with
              dir := system.dir.applyAll ((log.append cfg system.dir record).2.1.take count), log := none
              attempts := (off, record) :: system.attempts, cut := system.cut + 1 }
          else none

def fresh : System := ⟨emptyDir, none, [], [], 0⟩

def machine (cfg : Config) : Machine System Action := ⟨fun system => system = fresh, step cfg⟩

-- What a step does.
inductive Stepped (cfg : Config) (system : System) : Action → System → Prop where
  | started (down : system.log = none) (log : Log) (opened : (Log.new cfg system.dir).2 = .ok log) :
      Stepped cfg system .start { system with dir := system.dir.applyAll (Log.new cfg system.dir).1, log := some log }
  | appended (log : Log) (up : system.log = some log) (record : Bytes) (fits : log.fits record = true) (off : Nat)
      (accepted : (log.append cfg system.dir record).2.2 = .ok off) :
      Stepped cfg system (.append record) { system with
        dir := system.dir.applyAll (log.append cfg system.dir record).2.1, log := some (log.append cfg system.dir record).1
        acked := (off, record) :: system.acked, attempts := (off, record) :: system.attempts }
  | refused (log : Log) (up : system.log = some log) (record : Bytes) (fits : log.fits record = true) (kind : ErrorKind)
      (message : String) (failed : (log.append cfg system.dir record).2.2 = .error (.io kind message)) :
      Stepped cfg system (.append record) { system with
        dir := system.dir.applyAll (log.append cfg system.dir record).2.1, log := some (log.append cfg system.dir record).1 }
  | read (log : Log) (up : system.log = some log) (off : Nat) (buf : Bytes) :
      Stepped cfg system (.read off buf) { system with
        dir := system.dir.applyAll (log.read system.dir off buf).2.1, log := some (log.read system.dir off buf).1 }
  | closed (log : Log) (up : system.log = some log) :
      Stepped cfg system .close { system with dir := system.dir.applyAll log.close.2.1, log := none }
  | crashed (log : Log) (up : system.log = some log) : Stepped cfg system .crash { system with log := none }
  | cut (log : Log) (up : system.log = some log) (record : Bytes) (count off : Nat) (next : log.nextOffset = .ok off)
      (fits : log.fits record = true) :
      Stepped cfg system (.cutAppend record count) { system with
        dir := system.dir.applyAll ((log.append cfg system.dir record).2.1.take count), log := none
        attempts := (off, record) :: system.attempts, cut := system.cut + 1 }

theorem step_cases (cfg : Config) (system next : System) (action : Action) (moves : step cfg system action = some next) :
    Stepped cfg system action next := by
  cases action with
  | start =>
      simp only [step] at moves
      split at moves
      · cases moves
      rename_i down
      split at moves
      · rename_i writes log same
        cases moves
        have opened : Stepped cfg system .start _ := .started down log (by rw [same])
        rwa [same] at opened
      · cases moves
  | append record =>
      simp only [step, Option.bind_eq_some_iff] at moves
      obtain ⟨log, up, moves⟩ := moves
      split at moves
      case isFalse => cases moves
      rename_i fits
      split at moves
      · rename_i opened writes off same
        cases moves
        have appended : Stepped cfg system (.append record) _ := .appended log up record fits off (by rw [same])
        rwa [same] at appended
      · rename_i opened writes kind message same
        cases moves
        have refused : Stepped cfg system (.append record) _ := .refused log up record fits kind message (by rw [same])
        rwa [same] at refused
      · cases moves
  | read off buf =>
      simp only [step, Option.bind_eq_some_iff] at moves
      obtain ⟨log, up, moves⟩ := moves
      cases moves
      exact .read log up off buf
  | close =>
      simp only [step, Option.bind_eq_some_iff] at moves
      obtain ⟨log, up, moves⟩ := moves
      cases moves
      exact .closed log up
  | crash =>
      simp only [step, Option.bind_eq_some_iff] at moves
      obtain ⟨log, up, moves⟩ := moves
      cases moves
      exact .crashed log up
  | cutAppend record count =>
      simp only [step, Option.bind_eq_some_iff] at moves
      obtain ⟨log, up, moves⟩ := moves
      split at moves
      · cases moves
      rename_i off next
      split at moves
      case isFalse => cases moves
      rename_i fits
      cases moves
      exact .cut log up record count off next fits

-- What the callers were told, next to the records that the log stands for.
structure Tells (cfg : Config) (system : System) (data : List Bytes) : Prop where
  attempted : ∀ number record, data[number]? = some record →
    system.attempts.lookup (cfg.initalOffset + number) = some record
  acked : ∀ off record, (off, record) ∈ system.acked → ∃ number, off = cfg.initalOffset + number ∧ data[number]? = some record
  fewer : system.acked.length ≤ data.length
  more : data.length ≤ system.acked.length + system.cut
  uncut : system.cut = 0 → system.attempts = system.acked ∧
    system.acked.reverse.map Prod.fst = List.range' cfg.initalOffset data.length

theorem attempted_added (start : Nat) (attempts : List (Nat × Bytes)) (data : List Bytes) (record : Bytes)
    (attempted : ∀ number old, data[number]? = some old → attempts.lookup (start + number) = some old) :
    ∀ number old, (data ++ [record])[number]? = some old →
      ((start + data.length, record) :: attempts).lookup (start + number) = some old := by
  intro number old found
  by_cases here : number = data.length
  · subst here
    rw [List.getElem?_append_right le_rfl, Nat.sub_self] at found
    cases found
    simp
  · have before : number < data.length := by
      have bound := (List.getElem?_eq_some_iff.mp found).1
      rw [List.length_append, List.length_singleton] at bound
      omega
    rw [List.getElem?_append_left before] at found
    have apart : (start + number == start + data.length) = false := by
      apply beq_false_of_ne
      omega
    rw [List.lookup_cons, apart]
    exact attempted number old found

-- An append that was begun at the next offset hides no record.
theorem attempted_behind (start : Nat) (attempts : List (Nat × Bytes)) (data : List Bytes) (record : Bytes)
    (attempted : ∀ number old, data[number]? = some old → attempts.lookup (start + number) = some old) :
    ∀ number old, data[number]? = some old →
      ((start + data.length, record) :: attempts).lookup (start + number) = some old := by
  intro number old found
  have before := (List.getElem?_eq_some_iff.mp found).1
  apply attempted_added start attempts data record attempted
  rwa [List.getElem?_append_left before]

section Step

variable (cfg : Config) (system : System) (data : List Bytes) (tells : Tells cfg system data) (dir : Dir) (log : Option Log)

include tells

theorem tells_same : Tells cfg { system with dir := dir, log := log } data :=
  ⟨tells.attempted, tells.acked, tells.fewer, tells.more, tells.uncut⟩

theorem tells_added (record : Bytes) : Tells cfg { system with
    dir := dir, log := log, acked := (cfg.initalOffset + data.length, record) :: system.acked
    attempts := (cfg.initalOffset + data.length, record) :: system.attempts } (data ++ [record]) where
  attempted := attempted_added _ _ data record tells.attempted
  acked := by
    intro off old member
    rcases List.mem_cons.mp member with same | before
    · cases same
      exact ⟨data.length, rfl, by simp⟩
    · obtain ⟨number, here, found⟩ := tells.acked off old before
      refine ⟨number, here, ?_⟩
      rwa [List.getElem?_append_left (List.getElem?_eq_some_iff.mp found).1]
  fewer := by
    have fewer := tells.fewer
    simp only [List.length_cons, List.length_append, List.length_nil]
    omega
  more := by
    have more := tells.more
    simp only [List.length_cons, List.length_append, List.length_nil]
    omega
  uncut := by
    intro none
    obtain ⟨same, consecutive⟩ := tells.uncut none
    refine ⟨congrArg _ same, ?_⟩
    rw [List.reverse_cons, List.map_append, consecutive, List.length_append, List.length_singleton, List.range'_1_concat]
    rfl

theorem tells_cut_off (record : Bytes) : Tells cfg { system with
    dir := dir, log := log, attempts := (cfg.initalOffset + data.length, record) :: system.attempts
    cut := system.cut + 1 } data where
  attempted := attempted_behind _ _ data record tells.attempted
  acked := tells.acked
  fewer := tells.fewer
  more := tells.more.trans (Nat.le_succ _)
  uncut := fun none => absurd none (Nat.succ_ne_zero _)

theorem tells_cut_kept (record : Bytes) : Tells cfg { system with
    dir := dir, log := log, attempts := (cfg.initalOffset + data.length, record) :: system.attempts
    cut := system.cut + 1 } (data ++ [record]) where
  attempted := attempted_added _ _ data record tells.attempted
  acked := by
    intro off old member
    obtain ⟨number, here, found⟩ := tells.acked off old member
    refine ⟨number, here, ?_⟩
    rwa [List.getElem?_append_left (List.getElem?_eq_some_iff.mp found).1]
  fewer := by
    have fewer := tells.fewer
    simp only [List.length_append, List.length_singleton]
    omega
  more := by
    have more := tells.more
    simp only [List.length_append, List.length_singleton]
    omega
  uncut := fun none => absurd none (Nat.succ_ne_zero _)

end Step

-- What a step must meet so that the log goes on standing for its records.
def Permits (cfg : Config) (terms : Terms) (system : System) : Action → Prop
  | .append _ => ∀ log, system.log = some log → log.roomFor terms.limit = true
  | .crash => ∀ log, system.log = some log →
      cfg.syncWrites = true ∨ terms.whole = false ∧ log.active?.all (fun active => active.store.buffer.isEmpty) = true
  | .cutAppend record count => ∀ log, system.log = some log →
      cfg.syncWrites = true ∧ log.roomFor terms.limit = true ∧ (∀ next, log.nextOffset = .ok next → next < u64Max) ∧
        ∀ write, (log.append cfg system.dir record).2.1[count]? = some write → write.torn = false
  | _ => True

structure Standing (cfg : Config) (terms : Terms) (system : System) (data : List Bytes) : Prop where
  stands : Stands cfg terms system.dir system.log data
  tells : Tells cfg system data

theorem fresh_standing (cfg : Config) (terms : Terms) : Standing cfg terms fresh [] where
  stands := empty_stands cfg terms
  tells := ⟨by simp, by simp [fresh], le_rfl, le_rfl, fun _ => ⟨rfl, rfl⟩⟩

theorem stands_next_offset (cfg : Config) (terms : Terms) (dir : Dir) (log : Log) (data : List Bytes)
    (stands : Stands cfg terms dir (some log) data) : log.nextOffset = .ok (cfg.initalOffset + data.length) := by
  cases stands with
  | up _ before active up => exact up_next_offset cfg terms dir log before active up

theorem standing_step (cfg : Config) (terms : Terms) (system next : System) (action : Action)
    (data : List Bytes) (standing : Standing cfg terms system data) (permits : Permits cfg terms system action)
    (moves : step cfg system action = some next) : ∃ later, Standing cfg terms next later := by
  have stands := standing.stands
  have same := tells_same cfg system data standing.tells
  cases step_cases cfg system next action moves with
  | started down log opened =>
      rw [down] at stands
      exact ⟨data, stands_start cfg terms system.dir data stands log opened, same _ _⟩
  | appended log up record fits off accepted =>
      rw [up] at stands
      have grows := stands_append cfg terms system.dir log data stands record fits (permits log up) (by simp [accepted])
      rw [accepted] at grows
      rcases grows with ⟨here, grown⟩ | ⟨refused, _⟩
      · cases here
        exact ⟨data ++ [record], grown, tells_added cfg system data standing.tells _ _ record⟩
      · cases refused
  | refused log up record fits kind message failed =>
      rw [up] at stands
      have grows := stands_append cfg terms system.dir log data stands record fits (permits log up) (by simp [failed])
      rw [failed] at grows
      rcases grows with ⟨accepted, _⟩ | ⟨_, kept⟩
      · cases accepted
      · exact ⟨data, kept, same _ _⟩
  | read log up off buf =>
      rw [up] at stands
      exact ⟨data, stands_read cfg terms system.dir log data stands off buf, same _ _⟩
  | closed log up =>
      rw [up] at stands
      exact ⟨data, stands_close cfg terms system.dir log data stands, same _ _⟩
  | crashed log up =>
      rw [up] at stands
      exact ⟨data, stands_crash cfg terms system.dir log data stands (permits log up), same _ _⟩
  | cut log up record count off next fits =>
      rw [up] at stands
      obtain ⟨synced, room, offsets, safe⟩ := permits log up
      cases next.symm.trans (stands_next_offset cfg terms system.dir log data stands)
      rcases stands_cut cfg terms system.dir log data stands record fits room synced (offsets _ next) count safe
        with lost | kept
      · exact ⟨data, lost, tells_cut_off cfg system data standing.tells _ _ record⟩
      · exact ⟨data ++ [record], kept, tells_cut_kept cfg system data standing.tells _ _ record⟩

theorem standing_run (cfg : Config) (terms : Terms) (system : System)
    (run : Run (machine cfg) (Permits cfg terms) system) : ∃ data, Standing cfg terms system data := by
  apply run_invariant (machine cfg) (Permits cfg terms) (fun system => ∃ data, Standing cfg terms system data) ?_ ?_ system run
  · rintro _ rfl
    exact ⟨[], fresh_standing cfg terms⟩
  · rintro system action next _ ⟨data, standing⟩ permits moves
    exact standing_step cfg terms system next action data standing permits moves

end RaftLog.SegmentLog
