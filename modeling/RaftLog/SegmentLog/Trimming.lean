import RaftLog.SegmentLog.Rotation
import RaftLog.SegmentLog.Truncating

set_option autoImplicit false

namespace RaftLog.Trimming

open Lib SegmentLog

inductive Action where
  | append (record : Bytes)
  | read (off : Nat) (buf : Bytes)
  | truncate (off : Nat)
deriving DecidableEq, Repr

-- A run ends where a thread unwinds or the file system would report an error.
def step (cfg : Config) (site : Site) : Action → Option Site
  | .append record =>
      if site.log.fits record then
        match site.log.append cfg site.dir record with
        | (log, writes, .ok _) | (log, writes, .error (.io _ _)) => some ⟨site.dir.applyAll writes, log⟩
        | (_, _, .error (.panic _)) => none
      else none
  | .read off buf =>
      match site.log.read site.dir off buf with
      | (_, _, _, .error (.panic _)) => none
      | (log, writes, _, _) => some ⟨site.dir.applyAll writes, log⟩
  | .truncate off => some (site.truncate off)

def machine (cfg : Config) : Machine Site Action where
  start site := (Log.new cfg emptyDir).2 = .ok site.log ∧ site.dir = emptyDir.applyAll (Log.new cfg emptyDir).1
  step := step cfg

-- The log still serves what it keeps and takes the next record.
structure Usable (cfg : Config) (off : Nat) (site after : Site) : Prop where
  some : after.log.segments ≠ []
  active : after.log.activeIndex + 1 = after.log.segments.length
  contiguous : after.log.segments.IsChain fun segment next => segment.nextOffset = next.baseOffset
  ordered : (after.log.segments.map Segment.baseOffset).Pairwise (· < ·)
  trimmed : ∀ segment ∈ after.log.segments.tail, segment.baseOffset ≤ off
  reads : ∀ place ≤ off, ∀ buf record, (site.log.read site.dir place buf).2.2 = (record, .ok ()) →
    (after.log.read after.dir place buf).2.2 = (record, .ok ())
  appends : ∃ next, after.log.nextOffset = .ok next ∧ ∀ record, (after.log.append cfg after.dir record).2.2 = .ok next

-- The segment that becomes the active one.
def landing (log : Log) (off : Nat) : Option Segment := log.segments.reverse.find? fun segment => !segment.isLesserThanRange off

def hasRoom (segment : Segment) : Bool :=
  decide (segment.index.size + entireWidth ≤ segment.index.mapped) && decide (segment.nextOffset < u64Max)

def landsOnRoom (log : Log) (off : Nat) : Bool := (landing log off).any hasRoom

section Loop

variable (off activeIndex : Nat)

-- One turn of the loop.
theorem truncate_pops (init : List Segment) (last : Segment) (lesser : last.isLesserThanRange off = true) :
    (⟨activeIndex, init ++ [last]⟩ : Log).truncate off = ((⟨activeIndex - 1, init⟩ : Log).truncate off |>.1,
      last.remove ++ ((⟨activeIndex - 1, init⟩ : Log).truncate off).2) := by
  have short := pop_segments_length off init.reverse
  have reversed : (init ++ [last]).reverse = last :: init.reverse := by simp
  rw [List.length_reverse] at short
  simp only [Log.truncate, reversed, popSegments, if_pos lesser, List.length_append, List.length_singleton]
  rw [show activeIndex - (init.length + 1 - (popSegments off init.reverse).1.length) =
    activeIndex - 1 - (init.length - (popSegments off init.reverse).1.length) by omega]

theorem truncate_stops (init : List Segment) (last : Segment) (stays : ¬ last.isLesserThanRange off = true) :
    (⟨activeIndex, init ++ [last]⟩ : Log).truncate off = (⟨activeIndex, init ++ [last]⟩, []) := by
  have reversed : (init ++ [last]).reverse = last :: init.reverse := by simp
  simp only [Log.truncate, reversed, popSegments, if_neg stays]
  simp

end Loop

-- The directories have the same files of these segments.
def SameFiles (segments : List Segment) (dir after : Dir) : Prop :=
  ∀ segment ∈ segments, after.store segment.baseOffset = dir.store segment.baseOffset ∧
    after.index segment.baseOffset = dir.index segment.baseOffset

-- What Log::truncate leaves: the segments up to the last one that starts at or before the
-- offset, or none.
inductive Trimmed (cfg : Config) (terms : Terms) (off : Nat) (dir : Dir) (pairs : List (Extent × Segment)) : Site → Prop where
  | lands (kept : List (Extent × Segment)) (last : Extent × Segment) (removed : List (Extent × Segment)) (after : Site)
      (split : pairs = kept ++ last :: removed) (least : last.2.baseOffset ≤ off)
      (above : ∀ pair ∈ removed, off < pair.2.baseOffset) (up : Up cfg terms after.dir after.log kept last)
      (same : SameFiles ((kept ++ [last]).map Prod.snd) dir after.dir) : Trimmed cfg terms off dir pairs after
  | empties (after : Dir) (above : ∀ pair ∈ pairs, off < pair.2.baseOffset) :
      Trimmed cfg terms off dir pairs ⟨after, ⟨0, []⟩⟩

section Trim

variable (cfg : Config) (terms : Terms)

theorem up_log (dir : Dir) (log : Log) (before : List (Extent × Segment)) (active : Extent × Segment)
    (up : Up cfg terms dir log before active) : log = ⟨before.length, before.map Prod.snd ++ [active.2]⟩ := by
  rw [← up.activeIndex, ← List.map_singleton, ← List.map_append, ← up.segments]

variable (off : Nat)

theorem stops_trimmed (dir : Dir) (log : Log) (before : List (Extent × Segment)) (active : Extent × Segment)
    (up : Up cfg terms dir log before active) (stays : ¬ active.2.isLesserThanRange off = true) :
    Trimmed cfg terms off dir (before ++ [active]) ((⟨dir, log⟩ : Site).truncate off) := by
  have same := up_log cfg terms dir log before active up
  have least : active.2.baseOffset ≤ off := Nat.le_of_not_lt fun above => stays (decide_eq_true above)
  rw [Site.truncate, same, truncate_stops off _ _ _ stays, ← same]
  exact .lands before active [] _ rfl least (by simp) up fun _ _ => ⟨rfl, rfl⟩

-- The loop goes on without its last segment.
theorem pops_trimmed (dir cleared : Dir) (log : Log) (before : List (Extent × Segment)) (active : Extent × Segment)
    (up : Up cfg terms dir log before active) (removed : SameElse active.1.base dir cleared) (above : off < active.2.baseOffset)
    (after : Site) (rest : Trimmed cfg terms off cleared before after) :
    Trimmed cfg terms off dir (before ++ [active]) after := by
  have higher : ∀ pairs : List (Extent × Segment), (∀ pair ∈ pairs, off < pair.2.baseOffset) →
      ∀ pair ∈ pairs ++ [active], off < pair.2.baseOffset := by
    intro pairs before pair member
    rcases List.mem_append.mp member with old | new
    · exact before pair old
    · rw [List.mem_singleton.mp new]
      exact above
  cases rest with
  | empties after all => exact .empties after (higher before all)
  | lands kept last popped after split least all opened same =>
      refine .lands kept last (popped ++ [active]) after (by simp [split]) least (higher popped all) opened ?_
      intro segment member
      obtain ⟨pair, there, rfl⟩ := List.mem_map.mp member
      have own : pair ∈ before := by
        rw [split, List.append_cons]
        exact List.mem_append_left _ there
      have apart : pair.2.baseOffset ≠ active.1.base := by
        rw [(up.loaded pair (List.mem_append_left _ own)).base]
        exact (up_bases_below cfg terms dir log before active up pair own).ne
      exact ⟨(same _ member).1.trans (removed.store _ apart), (same _ member).2.trans (removed.index _ apart)⟩

-- The induction is on the segments from the last one, as the loop pops them.
theorem truncate_trimmed (whole : terms.whole = true) (before : List (Extent × Segment)) (dir : Dir) (log : Log)
    (active : Extent × Segment) (up : Up cfg terms dir log before active) :
    Trimmed cfg terms off dir (before ++ [active]) ((⟨dir, log⟩ : Site).truncate off) := by
  induction before using List.reverseRecOn generalizing dir log active with
  | nil =>
      by_cases lesser : active.2.isLesserThanRange off = true
      case neg => exact stops_trimmed cfg terms off dir log [] active up lesser
      rw [Site.truncate, up_log cfg terms dir log [] active up, truncate_pops off _ _ _ lesser]
      exact .empties _ fun pair member => (List.mem_singleton.mp member) ▸ of_decide_eq_true lesser
  | append_singleton init last ih =>
      by_cases lesser : active.2.isLesserThanRange off = true
      case neg => exact stops_trimmed cfg terms off dir log _ active up lesser
      have removed := remove_same_else active.2 dir
      have gone := gone_after_removal active.2 dir
      rw [(up_active_loaded cfg terms dir log _ active up).base] at removed gone
      have shorter := removed_up cfg terms dir log _ active up whole init last rfl _ removed gone
      rw [Site.truncate, up_log cfg terms dir log _ active up, truncate_pops off _ _ _ lesser, perform_all_append,
        List.length_append, List.length_singleton, Nat.add_sub_cancel]
      exact pops_trimmed cfg terms off dir _ log _ active up removed (of_decide_eq_true lesser) _
        (ih _ _ last shorter)

end Trim

-- A record of the active segment is numbered with a 64-bit offset, so no segment has more.
def appending : Terms := ⟨u64Max, true⟩

inductive Standing (cfg : Config) : Site → Prop where
  | up (site : Site) (before : List (Extent × Segment)) (active : Extent × Segment)
      (up : Up cfg appending site.dir site.log before active) : Standing cfg site
  | emptied (dir : Dir) : Standing cfg ⟨dir, ⟨0, []⟩⟩

section Step

variable (cfg : Config)

theorem append_standing (site next : Site) (record : Bytes) (standing : Standing cfg site)
    (moves : step cfg site (.append record) = some next) : Standing cfg next := by
  simp only [step] at moves
  split at moves
  case isFalse => cases moves
  rename_i fits
  have moved : next = ⟨site.dir.applyAll (site.log.append cfg site.dir record).2.1, (site.log.append cfg site.dir record).1⟩ ∧
      ∀ message, (site.log.append cfg site.dir record).2.2 ≠ .error (.panic message) := by
    split at moves
    · rename_i same
      cases moves
      rw [same]
      exact ⟨rfl, by simp⟩
    · rename_i same
      cases moves
      rw [same]
      exact ⟨rfl, by simp⟩
    · cases moves
  obtain ⟨rfl, served⟩ := moved
  cases standing with
  | emptied dir => exact absurd rfl (served _)
  | up _ before active up =>
      have few : ¬ Full cfg active.1 → active.1.records.length < appending.limit ∧ active.1.next < u64Max := by
        intro room
        have typed : active.1.next < u64Max := by
          by_contra most
          exact served _ (log_append_overflow cfg appending site.dir site.log before active record up room most)
        exact ⟨(Nat.le_add_left _ _).trans_lt typed, typed⟩
      obtain ⟨later, last, _, appended⟩ := append_up cfg appending site.dir site.log before active record up
        (up_fits cfg appending site.dir site.log before active record up fits) few
      exact .up _ later last appended

theorem read_step (site next : Site) (off : Nat) (buf : Bytes) (moves : step cfg site (.read off buf) = some next) :
    next = ⟨site.dir.applyAll (site.log.read site.dir off buf).2.1, (site.log.read site.dir off buf).1⟩ := by
  simp only [step] at moves
  split at moves
  · cases moves
  · rename_i same
    cases moves
    rw [same]

theorem standing_run (site : Site) (run : Reachable (machine cfg) site) : Standing cfg site := by
  refine run_invariant (machine cfg) _ (Standing cfg) ?_ ?_ site run
  · rintro ⟨dir, log⟩ ⟨opened, rfl⟩
    obtain ⟨pairs, pair, _, _, up⟩ := log_new_up cfg appending emptyDir [] _ (empty_down cfg appending) log opened
    exact .up _ pairs pair up
  · intro site action next _ standing _ moves
    cases action with
    | append record => exact append_standing cfg site next record standing moves
    | read off buf =>
        obtain rfl := read_step cfg site next off buf moves
        cases standing with
        | emptied dir => exact .emptied dir
        | up _ before active up =>
            obtain ⟨later, last, flushed, _⟩ := log_read_up cfg appending site.dir site.log before active up off buf
            exact .up _ later last flushed
    | truncate off =>
        cases moves
        cases standing with
        | emptied dir => exact .emptied dir
        | up _ before active up =>
            have trimmed := truncate_trimmed cfg appending off rfl before site.dir site.log active up
            generalize site.truncate off = after at trimmed
            cases trimmed with
            | lands kept last _ after _ _ _ opened => exact .up after kept last opened
            | empties after => exact .emptied after

end Step

section Reads

variable (dir after : Dir) (place : Nat) (buf : Bytes)

theorem segment_read_same (segment : Segment) (store : after.store segment.baseOffset = dir.store segment.baseOffset)
    (index : after.index segment.baseOffset = dir.index segment.baseOffset) :
    segment.read after place buf = segment.read dir place buf := by
  simp only [Segment.read, store_writes_store, store, index]

theorem log_read_find (log : Log) : (log.read dir place buf).2.2 =
    match log.segments.find? (·.isInRange place) with
    | none => (buf, .error (.io .unexpectedEof "offset out of range"))
    | some segment => (segment.read dir place buf).2.2 := by
  rw [List.find?_eq_getElem?_findIdx, Log.read]
  cases log.segments[log.segments.findIdx (·.isInRange place)]? with
  | none => rfl
  | some segment => rfl

-- Removed segments that start behind an offset had no record of it.
theorem read_kept (index other : Nat) (kept removed : List Segment) (same : SameFiles kept dir after)
    (above : ∀ segment ∈ removed, place < segment.baseOffset) :
    ((⟨index, kept⟩ : Log).read after place buf).2.2 = ((⟨other, kept ++ removed⟩ : Log).read dir place buf).2.2 := by
  have none : removed.find? (·.isInRange place) = none := by
    rw [List.find?_eq_none]
    intro segment member inRange
    have least := of_decide_eq_true (Bool.and_eq_true_iff.mp inRange).1
    exact absurd (above segment member) (Nat.not_lt.mpr least)
  rw [log_read_find, log_read_find, List.find?_append, none, Option.or_none]
  cases found : kept.find? (·.isInRange place) with
  | none => rfl
  | some segment =>
      obtain ⟨store, index⟩ := same segment (List.mem_of_find?_eq_some found)
      simp only [segment_read_same dir after place buf segment store index]

end Reads

section Append

variable (cfg : Config) (terms : Terms) (dir : Dir) (log : Log) (before : List (Extent × Segment))
  (active : Extent × Segment) (up : Up cfg terms dir log before active)

include up

theorem up_rotating : Rotating cfg dir log active.2 active.1.records.length := by
  have loaded := up_active_loaded cfg terms dir log before active up
  have next : active.2.nextOffset = active.1.base + active.1.records.length := loaded.next
  refine ⟨up_active cfg terms dir log before active up, ?_, loaded.index, ?_, fun base present => ?_⟩
  · rw [up.activeIndex, up.segments]
    simp
  · rw [loaded.base, next]
    exact Nat.le_add_right _ _
  · obtain ⟨pair, member, rfl⟩ := List.mem_map.mp ((up.listed base).mp present)
    rcases List.mem_append.mp member with old | new
    · have below := up_bases_below cfg terms dir log before active up pair old
      omega
    · rw [List.mem_singleton.mp new]
      omega

theorem appends_iff : (∃ next, log.nextOffset = .ok next ∧ ∀ record, (log.append cfg dir record).2.2 = .ok next) ↔
    hasRoom active.2 = true := by
  have rotating := up_rotating cfg terms dir log before active up
  have next : log.nextOffset = .ok active.2.nextOffset := by rw [Log.nextOffset, rotating.here]
  rw [hasRoom, Bool.and_eq_true, decide_eq_true_eq, decide_eq_true_eq, rotating.index]
  dsimp only
  constructor
  · rintro ⟨next, _, accepted⟩
    by_contra refuses
    obtain ⟨failure, refused⟩ := append_refused cfg dir log active.2 active.1.records.length [] rotating (by omega)
    rw [accepted []] at refused
    cases refused
  · rintro ⟨room, offsets⟩
    refine ⟨_, next, fun record => ?_⟩
    obtain ⟨_, _, _, accepted, _⟩ :=
      append_accepted cfg dir log active.2 active.1.records.length record rotating room offsets
    rw [accepted]

theorem up_contiguous : log.segments.IsChain fun segment next => segment.nextOffset = next.baseOffset := by
  have chain := chained_adjacent Extent.base Extent.records _ _ up.extents.chained
  have bounds := up_bounds cfg terms dir log before active up
  rw [← extents_of_snoc, extentsOf, List.isChain_map] at chain
  have mapped : (log.segments.map Segment.bounds).IsChain fun bounds next => bounds.2 = next.1 := by
    rw [bounds, List.isChain_map]
    exact chain
  rwa [List.isChain_map] at mapped

theorem up_ordered : (log.segments.map Segment.baseOffset).Pairwise (· < ·) := by
  have ascending := extents_ascending _ _ _ up.extents
  have bounds := congrArg (List.map Prod.fst) (up_bounds cfg terms dir log before active up)
  rw [List.map_map, List.map_map] at bounds
  rw [← extents_of_snoc, extentsOf, List.map_map] at ascending
  exact bounds ▸ ascending

end Append

section Landing

variable (off : Nat)

theorem lesser_none (segments : List Segment) (above : ∀ segment ∈ segments, off < segment.baseOffset) :
    segments.find? (fun segment => !segment.isLesserThanRange off) = none := by
  rw [List.find?_eq_none]
  intro segment member
  simp [Segment.isLesserThanRange, above segment member]

theorem landing_none (log : Log) (above : ∀ segment ∈ log.segments, off < segment.baseOffset) : landing log off = none :=
  lesser_none off log.segments.reverse fun segment member => above segment (List.mem_reverse.mp member)

theorem landing_last (index : Nat) (kept : List Segment) (last : Segment) (removed : List Segment)
    (least : last.baseOffset ≤ off) (above : ∀ segment ∈ removed, off < segment.baseOffset) :
    landing ⟨index, kept ++ last :: removed⟩ off = some last := by
  have stays : (!last.isLesserThanRange off) = true := by simp [Segment.isLesserThanRange, least]
  have reversed : (kept ++ last :: removed).reverse = removed.reverse ++ last :: kept.reverse := by simp
  rw [landing, reversed, List.find?_append, lesser_none off removed.reverse fun segment member =>
    above segment (List.mem_reverse.mp member), Option.none_or]
  exact List.find?_cons_of_pos stays

end Landing

-- All that is asked of the log, but for the next append, holds after every truncation that leaves a segment.
theorem lands_usable (cfg : Config) (terms : Terms) (off : Nat) (site after : Site) (kept : List (Extent × Segment))
    (last : Extent × Segment) (removed : List Segment)
    (here : site.log = ⟨site.log.activeIndex, (kept ++ [last]).map Prod.snd ++ removed⟩) (least : last.2.baseOffset ≤ off)
    (above : ∀ segment ∈ removed, off < segment.baseOffset) (up : Up cfg terms after.dir after.log kept last)
    (same : SameFiles ((kept ++ [last]).map Prod.snd) site.dir after.dir)
    (appends : ∃ next, after.log.nextOffset = .ok next ∧ ∀ record, (after.log.append cfg after.dir record).2.2 = .ok next) :
    Usable cfg off site after := by
  have ordered := up_ordered cfg terms after.dir after.log kept last up
  constructor
  case some => simp [up.segments]
  case active => simp [up.segments, up.activeIndex]
  case contiguous => exact up_contiguous cfg terms after.dir after.log kept last up
  case ordered => exact ordered
  case appends => exact appends
  case trimmed =>
    intro segment member
    have listed := List.mem_of_mem_tail member
    rw [up.segments, List.map_append, List.map_singleton] at ordered listed
    rw [List.map_append, List.pairwise_append] at ordered
    rcases List.mem_append.mp listed with old | new
    · exact (ordered.2.2 _ (List.mem_map_of_mem old) _ List.mem_cons_self).le.trans least
    · rw [List.mem_singleton.mp new]
      exact least
  case reads =>
    intro place within buf record read
    have served := read_kept site.dir after.dir place buf after.log.activeIndex site.log.activeIndex _ removed same
      fun segment member => within.trans_lt (above segment member)
    rw [← here, ← up.segments] at served
    exact served.trans read

theorem usable_iff (cfg : Config) (site : Site) (run : Reachable (machine cfg) site) (off : Nat) :
    Usable cfg off site (site.truncate off) ↔ landsOnRoom site.log off = true := by
  cases standing_run cfg site run with
  | emptied dir =>
      apply iff_of_false
      · exact fun usable => usable.some rfl
      · exact Bool.false_ne_true
  | up _ before active up =>
      have trimmed := truncate_trimmed cfg appending off rfl before site.dir site.log active up
      have segments : site.log.segments = (before ++ [active]).map Prod.snd := up.segments
      have lesser : ∀ pairs : List (Extent × Segment), (∀ pair ∈ pairs, off < pair.2.baseOffset) →
          ∀ segment ∈ pairs.map Prod.snd, off < segment.baseOffset := by
        intro pairs above segment member
        obtain ⟨pair, there, rfl⟩ := List.mem_map.mp member
        exact above pair there
      generalize site.truncate off = after at trimmed
      cases trimmed with
      | empties after above =>
          have none := landing_none off site.log (segments ▸ lesser _ above)
          apply iff_of_false
          · exact fun usable => usable.some rfl
          · rw [landsOnRoom, none]
            exact Bool.false_ne_true
      | lands kept last removed after split least above opened same =>
          have here : site.log = ⟨site.log.activeIndex, (kept ++ [last]).map Prod.snd ++ removed.map Prod.snd⟩ := by
            rw [← List.map_append, ← List.append_cons, ← split, ← segments]
          have room : landsOnRoom site.log off = hasRoom last.2 := by
            rw [landsOnRoom, here, List.map_append, List.map_singleton, ← List.append_cons,
              landing_last off _ _ last.2 _ least (lesser removed above)]
            rfl
          rw [room, ← appends_iff cfg appending after.dir after.log kept last opened]
          exact ⟨fun usable => usable.appends,
            lands_usable cfg appending off site after kept last _ here least (lesser removed above) opened same⟩

def siteAfter (cfg : Config) (actions : List Action) : Site := (exec (machine cfg) (Site.fresh cfg) actions).getD (Site.fresh cfg)

-- Segments of two slots, and of three slots that the limit on the store ends behind the second record.
def fullSegments : Config := ⟨0, false, 24, 1024⟩

def shortSegments : Config := ⟨0, false, 36, 18⟩

def threeAppends : List Action := [.append [1], .append [2], .append [3]]

theorem lands_on_short_segment : Usable shortSegments 1 (siteAfter shortSegments threeAppends)
    ((siteAfter shortSegments threeAppends).truncate 1) :=
  (usable_iff shortSegments (siteAfter shortSegments threeAppends) (exec_reaches (machine shortSegments) threeAppends
    (Site.fresh shortSegments) _ (.start _ ⟨by decide +kernel, rfl⟩) (by decide +kernel)) 1).mpr (by decide +kernel)

theorem full_segment_refuses : ¬ ∀ (cfg : Config), 0 < cfg.maxSizeBytes → entireWidth ∣ cfg.maxSizeBytes →
    ∀ site, Reachable (machine cfg) site → ∀ off, Usable cfg off site (site.truncate off) := by
  intro always
  have reached := exec_reaches (machine fullSegments) threeAppends (Site.fresh fullSegments) (Site.fresh fullSegments)
    (.start _ ⟨by decide +kernel, rfl⟩) (by decide +kernel)
  obtain ⟨next, _, accepted⟩ := (always fullSegments (by decide) (by decide) _ reached 1).appends
  have refused : (((siteAfter fullSegments threeAppends).truncate 1).log.append fullSegments
      ((siteAfter fullSegments threeAppends).truncate 1).dir [4]).2.2 = .error (.io .unexpectedEof "index is full") := by
    decide +kernel
  cases refused.symm.trans (accepted [4])

end RaftLog.Trimming
