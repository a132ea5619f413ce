import RaftLog.SegmentLog.Counting
import RaftLog.SegmentLog.Crashes

set_option autoImplicit false

namespace RaftLog.SegmentLog

open Lib

-- What Log::truncate does to the directory, one file at a time.
inductive FileOp where
  | write (change : Write)
  | removeStore (base : Nat)
  | removeIndex (base : Nat)
deriving DecidableEq, Repr

def FileOp.base : FileOp → Nat
  | .write change => change.base
  | .removeStore base | .removeIndex base => base

def Dir.perform (dir : Dir) : FileOp → Dir
  | .write change => dir.apply change
  | .removeStore base => { dir with stores := dir.stores.erase base }
  | .removeIndex base => { dir with indexes := dir.indexes.erase base }

def Dir.performAll (dir : Dir) (ops : List FileOp) : Dir := ops.foldl Dir.perform dir

@[simp] theorem perform_all_nil (dir : Dir) : dir.performAll [] = dir := rfl

@[simp] theorem perform_all_cons (dir : Dir) (op : FileOp) (ops : List FileOp) :
    dir.performAll (op :: ops) = (dir.perform op).performAll ops := rfl

@[simp] theorem perform_all_append (dir : Dir) (first second : List FileOp) :
    dir.performAll (first ++ second) = (dir.performAll first).performAll second := List.foldl_append

def Segment.isLesserThanRange (segment : Segment) (off : Nat) : Bool := decide (off < segment.baseOffset)

def Segment.remove (segment : Segment) : List FileOp :=
  segment.close.2.map .write ++ [.removeStore segment.baseOffset, .removeIndex segment.baseOffset]

-- The loop of Log::truncate over the segments, the last one first.
def popSegments (off : Nat) : List Segment → List Segment × List FileOp
  | [] => ([], [])
  | segment :: rest =>
      if segment.isLesserThanRange off then ((popSegments off rest).1, segment.remove ++ (popSegments off rest).2)
      else (segment :: rest, [])

def Log.truncate (log : Log) (off : Nat) : Log × List FileOp :=
  let (kept, ops) := popSegments off log.segments.reverse
  (⟨log.activeIndex - (log.segments.length - kept.length), kept.reverse⟩, ops)

-- A log and the directory that it has open.
structure Site where
  dir : Dir
  log : Log

def Site.truncate (site : Site) (off : Nat) : Site := ⟨site.dir.performAll (site.log.truncate off).2, (site.log.truncate off).1⟩

-- What Log::new makes of an empty directory.
def Site.fresh (cfg : Config) : Site :=
  ⟨emptyDir.applyAll (Log.new cfg emptyDir).1,
    ⟨0, [⟨cfg.initalOffset, cfg.initalOffset, ⟨0, []⟩, ⟨0, cfg.maxSizeBytes⟩⟩]⟩⟩

theorem pop_segments_length (off : Nat) (segments : List Segment) : (popSegments off segments).1.length ≤ segments.length := by
  induction segments with
  | nil => exact le_rfl
  | cons segment rest ih =>
      rw [popSegments]
      split
      · exact ih.trans (Nat.le_succ _)
      · exact le_rfl

-- Directories that differ in the files of one segment only.
structure SameElse (base : Nat) (dir after : Dir) : Prop where
  store : ∀ other, other ≠ base → after.store other = dir.store other
  index : ∀ other, other ≠ base → after.index other = dir.index other
  has : ∀ other, other ≠ base → (after.has other ↔ dir.has other)

theorem perform_same_else (dir : Dir) (op : FileOp) : SameElse op.base dir (dir.perform op) := by
  cases op with
  | write change =>
      refine ⟨fun other apart => apply_store_other dir change other apart,
        fun other apart => apply_index_other dir change other apart, fun other apart => ?_⟩
      exact (apply_has dir change other).trans (or_iff_right apart)
  | removeStore base =>
      refine ⟨fun other apart => ?_, fun other _ => rfl, fun other apart => ?_⟩
      · exact congrArg (Option.getD · []) (AList.lookup_erase_ne apart)
      · exact or_congr_left (AList.mem_erase.trans (and_iff_right apart))
  | removeIndex base =>
      refine ⟨fun other _ => rfl, fun other apart => ?_, fun other apart => ?_⟩
      · exact congrArg (Option.getD · []) (AList.lookup_erase_ne apart)
      · exact or_congr_right (AList.mem_erase.trans (and_iff_right apart))

theorem perform_all_same_else (base : Nat) (ops : List FileOp) (dir : Dir) (own : ∀ op ∈ ops, op.base = base) :
    SameElse base dir (dir.performAll ops) := by
  induction ops generalizing dir with
  | nil => exact ⟨fun _ _ => rfl, fun _ _ => rfl, fun _ _ => Iff.rfl⟩
  | cons op rest ih =>
      have first := perform_same_else dir op
      rw [own op List.mem_cons_self] at first
      have later := ih (dir.perform op) fun other member => own other (List.mem_cons_of_mem _ member)
      exact ⟨fun other apart => (later.store other apart).trans (first.store other apart),
        fun other apart => (later.index other apart).trans (first.index other apart),
        fun other apart => (later.has other apart).trans (first.has other apart)⟩

section Own

variable (segment : Segment)

theorem remove_own : ∀ op ∈ segment.remove, op.base = segment.baseOffset := by
  intro op member
  rcases List.mem_append.mp member with closing | removal
  · obtain ⟨write, closed, rfl⟩ := List.mem_map.mp closing
    exact close_writes_base segment write closed
  · rcases List.mem_pair.mp removal with rfl | rfl
    · rfl
    · rfl

-- The removal of a segment touches no other one.
theorem remove_same_else (dir : Dir) : SameElse segment.baseOffset dir (dir.performAll segment.remove) :=
  perform_all_same_else segment.baseOffset segment.remove dir (remove_own segment)

theorem gone_after_removal (dir : Dir) : ¬ (dir.performAll segment.remove).has segment.baseOffset := by
  rw [Segment.remove, perform_all_append]
  simp [Dir.performAll, Dir.perform, Dir.has, AList.mem_erase]

end Own

section Remove

variable (cfg : Config) (terms : Terms) (dir : Dir) (log : Log) (before : List (Extent × Segment))
  (active : Extent × Segment) (up : Up cfg terms dir log before active) (synced : cfg.syncWrites = true)

include up synced

-- With synced writes the store has nothing to flush.
theorem remove_ops : active.2.remove =
    [.write (.setIndexLen active.1.base (entireWidth * active.1.records.length)), .removeStore active.1.base,
      .removeIndex active.1.base] := by
  have loaded := up_active_loaded cfg terms dir log before active up
  have empty := loaded.synced synced
  simp [Segment.remove, Segment.close, Store.flush, flushed, storeWrites, empty, loaded.base, loaded.index]

-- The segment's files when its index has been cut to its entries.
theorem cut_held : Held cfg terms (dir.applyAll [.setIndexLen active.1.base (entireWidth * active.1.records.length)]) []
    active.1 ∧ ((dir.applyAll [.setIndexLen active.1.base (entireWidth * active.1.records.length)]).index
      active.1.base).length = entireWidth * active.1.records.length := by
  have loaded := up_active_loaded cfg terms dir log before active up
  have empty := loaded.synced synced
  have closed := close_held cfg terms dir active.1 active.2 loaded
  have writes : active.2.close.2 = [.setIndexLen active.1.base (entireWidth * active.1.records.length)] := by
    simp [Segment.close, Store.flush, flushed, storeWrites, empty, loaded.base, loaded.index]
  rwa [writes] at closed

-- The process dies with the other segments' files as they are.
theorem down_else (after : Dir) (same : SameElse active.1.base dir after) (here : after.has active.1.base)
    (held : Held cfg terms after [] active.1) : Down cfg terms after (before.map Prod.fst) active.1 := by
  constructor
  case extents => exact up.extents
  case held =>
    intro extent member
    rcases List.mem_append.mp member with old | new
    · obtain ⟨pair, there, rfl⟩ := List.mem_map.mp old
      have apart := (up_bases_below cfg terms dir log before active up pair there).ne
      exact held_same cfg terms dir after pair.1 (same.store _ apart) (same.index _ apart) []
        (synced_held cfg terms dir log before active up synced pair (List.mem_append_left _ there))
    · rw [List.mem_singleton.mp new]
      exact held
  case listed =>
    left
    intro base
    by_cases own : base = active.1.base
    · subst own
      exact iff_of_true here (by simp)
    · rw [same.has base own, up.listed, pair_bases, extents_of_snoc]

omit synced in
-- Without the files of its last segment a log is the log of the others.
theorem removed_up (whole : terms.whole = true) (init : List (Extent × Segment)) (last : Extent × Segment)
    (split : before = init ++ [last]) (after : Dir) (same : SameElse active.1.base dir after)
    (gone : ¬ after.has active.1.base) : Up cfg terms after ⟨init.length, before.map Prod.snd⟩ init last := by
  subst split
  have below := up_bases_below cfg terms dir log (init ++ [last]) active up
  constructor
  case extents =>
    have chained := ((chained_last Extent.base Extent.records _ _ _).mp up.extents.chained).1
    rw [List.map_append, List.map_singleton] at chained
    refine ⟨chained, fun extent member => up.extents.filled extent ?_, ?_⟩
    · rw [List.map_append]
      exact List.mem_append_left _ member
    · exact (up.loaded last (by simp)).held.kept whole
  case loaded =>
    intro pair member
    have apart := (below pair member).ne
    exact loaded_same cfg terms dir after pair.1 (same.store _ apart) (same.index _ apart) pair.2
      (up.loaded pair (List.mem_append_left _ member))
  case listed =>
    intro base
    by_cases own : base = active.1.base
    · subst own
      apply iff_of_false gone
      intro present
      obtain ⟨pair, member, equal⟩ := List.mem_map.mp present
      exact (below pair member).ne equal
    · rw [same.has base own, up.listed, List.map_append, List.mem_append]
      exact or_iff_left (by simpa using own)
  case segments => rfl
  case activeIndex => rfl

def storeless (dir : Dir) (extent : Extent) : Dir :=
  (dir.apply (.setIndexLen extent.base (entireWidth * extent.records.length))).perform (.removeStore extent.base)

-- Between the two removals only the index is left.
theorem storeless_files : SameElse active.1.base dir (storeless dir active.1) ∧ (storeless dir active.1).has active.1.base ∧
    (storeless dir active.1).store active.1.base = [] ∧
    Indexed ((storeless dir active.1).index active.1.base) active.1.positions ∧
    ((storeless dir active.1).index active.1.base).length = entireWidth * active.1.records.length := by
  obtain ⟨held, length⟩ := cut_held cfg terms dir log before active up synced
  refine ⟨?_, ?_, ?_, held.indexed, length⟩
  · apply perform_all_same_else active.1.base [.write (.setIndexLen active.1.base (entireWidth * active.1.records.length)),
      .removeStore active.1.base]
    simp [FileOp.base, Write.base]
  · exact .inr (AList.mem_insert _ |>.mpr (.inl rfl))
  · simp [storeless, Dir.perform, Dir.store]

theorem storeless_listing : Listing cfg (storeless dir active.1) (before.map Prod.fst ++ [active.1]) := by
  obtain ⟨same, here, _, indexed, length⟩ := storeless_files cfg terms dir log before active up synced
  have ascending := extents_ascending _ _ _ up.extents
  have others : ∀ pair ∈ before, pair.1.base ≠ active.1.base := fun pair member =>
    (up_bases_below cfg terms dir log before active up pair member).ne
  constructor
  case chained => exact up.extents.chained
  case ascending => exact ascending
  case offsets =>
    rw [bases_eq _ _ ascending, if_neg (by simp)]
    intro base
    by_cases own : base = active.1.base
    · subst own
      exact iff_of_true here (by simp)
    · rw [same.has base own, up.listed, pair_bases, extents_of_snoc]
  case indexed =>
    intro extent member
    rcases List.mem_append.mp member with old | new
    · obtain ⟨pair, there, rfl⟩ := List.mem_map.mp old
      rw [same.index _ (others pair there)]
      exact (up.loaded pair (List.mem_append_left _ there)).held.indexed
    · rw [List.mem_singleton.mp new]
      exact indexed
  case length =>
    intro extent member
    rcases List.mem_append.mp member with old | new
    · obtain ⟨pair, there, rfl⟩ := List.mem_map.mp old
      rw [same.index _ (others pair there)]
      exact (up.loaded pair (List.mem_append_left _ there)).held.length
    · rw [List.mem_singleton.mp new]
      exact .inl length

-- A segment without records has nothing in its store to miss.
theorem storeless_down (empty : active.1.records = []) :
    Down cfg terms (storeless dir active.1) (before.map Prod.fst) active.1 := by
  obtain ⟨same, here, store, _, length⟩ := storeless_files cfg terms dir log before active up synced
  apply down_else cfg terms dir log before active up synced _ same here
  have bare : active.1 = ⟨active.1.base, [], []⟩ := by
    rw [← empty, ← up.extents.whole]
  have index : (storeless dir active.1).index active.1.base = [] := by
    apply List.eq_nil_of_length_eq_zero
    rw [length, empty]
    rfl
  exact (congrArg (Held cfg terms (storeless dir active.1) []) bare).mpr (fresh_held cfg terms _ active.1.base store index)

end Remove

-- What a process that dies inside Log::truncate leaves: the first segments of the log, or
-- these with the last one's store gone.
inductive Cut (cfg : Config) (terms : Terms) (pairs : List (Extent × Segment)) (after : Dir) (next : Option FileOp) : Prop where
  | whole (kept : List (Extent × Segment)) (last : Extent × Segment) (part : kept ++ [last] <+: pairs)
      (down : Down cfg terms after (kept.map Prod.fst) last.1)
      (safe : ∀ base, next = some (.removeIndex base) → ∃ pair ∈ pairs, pair.1.base = base ∧ pair.1.records = []) :
      Cut cfg terms pairs after next
  | hollow (kept : List (Extent × Segment)) (last : Extent × Segment) (part : kept ++ [last] <+: pairs)
      (filled : last.1.records ≠ []) (torn : next = some (.removeIndex last.1.base))
      (listing : Listing cfg after (kept.map Prod.fst ++ [last.1])) (empty : after.store last.1.base = []) :
      Cut cfg terms pairs after next

section Truncate

variable (cfg : Config) (terms : Terms) (synced : cfg.syncWrites = true) (off : Nat)

include synced

-- The removal of the last segment, cut short.
theorem removal_cut (dir : Dir) (log : Log) (before : List (Extent × Segment)) (active : Extent × Segment)
    (up : Up cfg terms dir log before active) (count : Nat) (short : count < active.2.remove.length) :
    Cut cfg terms (before ++ [active]) (dir.performAll (active.2.remove.take count)) active.2.remove[count]? := by
  have ops := remove_ops cfg terms dir log before active up synced
  have down := synced_down cfg terms dir log before active up synced
  rw [ops] at short ⊢
  match count with
  | 0 => exact .whole before active List.prefix_rfl down (by simp)
  | 1 =>
      have held := (cut_held cfg terms dir log before active up synced).1
      refine .whole before active List.prefix_rfl ?_ (by simp)
      exact down_at cfg terms dir log before active up synced _ (by simp [Write.base]) active.1 held rfl up.extents.whole
  | 2 =>
      have listing := storeless_listing cfg terms dir log before active up synced
      obtain ⟨_, _, store, _, _⟩ := storeless_files cfg terms dir log before active up synced
      by_cases empty : active.1.records = []
      · refine .whole before active List.prefix_rfl (storeless_down cfg terms dir log before active up synced empty) ?_
        intro base torn
        cases torn
        exact ⟨active, by simp, rfl, empty⟩
      · exact .hollow before active List.prefix_rfl empty rfl listing store
  | more + 3 => simp at short

theorem truncate_cut (whole : terms.whole = true) (least : cfg.initalOffset ≤ off) (before : List (Extent × Segment)) (dir : Dir)
    (log : Log) (active : Extent × Segment) (up : Up cfg terms dir log before active) (count : Nat) :
    Cut cfg terms (before ++ [active])
      (dir.performAll ((popSegments off ((before ++ [active]).map Prod.snd).reverse).2.take count))
      (popSegments off ((before ++ [active]).map Prod.snd).reverse).2[count]? := by
  induction before using List.reverseRecOn generalizing dir log active count with
  | nil =>
      have base : ¬ off < active.2.baseOffset := by
        rw [(up_active_loaded cfg terms dir log [] active up).base, up.extents.chained.1]
        exact Nat.not_lt.mpr least
      have stays : popSegments off (([] ++ [active]).map Prod.snd).reverse = ([active.2], []) := by
        simp [popSegments, Segment.isLesserThanRange, base]
      rw [stays]
      dsimp only
      rw [List.take_nil, perform_all_nil]
      exact .whole [] active List.prefix_rfl (synced_down cfg terms dir log [] active up synced) (by simp)
  | append_singleton init last ih =>
      have reversed : ((init ++ [last] ++ [active]).map Prod.snd).reverse =
          active.2 :: ((init ++ [last]).map Prod.snd).reverse := by simp
      rw [reversed, popSegments]
      by_cases lesser : active.2.isLesserThanRange off = true
      case neg =>
        rw [if_neg lesser]
        dsimp only
        rw [List.take_nil, perform_all_nil]
        exact .whole (init ++ [last]) active List.prefix_rfl (synced_down cfg terms dir log _ active up synced) (by simp)
      rw [if_pos lesser]
      by_cases short : count < active.2.remove.length
      · dsimp only
        rw [List.take_append_of_le_length short.le, List.getElem?_append_left short]
        exact removal_cut cfg terms synced dir log (init ++ [last]) active up count short
      -- the whole segment is gone, and the loop goes on with the one before it
      obtain ⟨more, rfl⟩ := Nat.exists_eq_add_of_le (Nat.le_of_not_lt short)
      have same := remove_same_else active.2 dir
      have gone := gone_after_removal active.2 dir
      rw [(up_active_loaded cfg terms dir log _ active up).base] at same gone
      have rest := ih (dir.performAll active.2.remove) _ last
        (removed_up cfg terms dir log _ active up whole init last rfl _ same gone) more
      dsimp only
      rw [List.take_length_add_append, perform_all_append, List.getElem?_append_right (Nat.le_add_right _ _),
        Nat.add_sub_cancel_left]
      cases rest with
      | whole kept tail part down safe =>
          refine .whole kept tail (part.trans (List.prefix_append _ _)) down fun base torn => ?_
          obtain ⟨pair, member, found⟩ := safe base torn
          exact ⟨pair, List.mem_append_left _ member, found⟩
      | hollow kept tail part filled torn listing empty =>
          exact .hollow kept tail (part.trans (List.prefix_append _ _)) filled torn listing empty

end Truncate

def Segment.bounds (segment : Segment) : Nat × Nat := (segment.baseOffset, segment.nextOffset)

-- Opened again, the log has the first of its segments, each whole, and all their records.
def TruncatesWhole (cfg : Config) (system : System) (log : Log) (after : Dir) : Prop :=
  ∃ again next, (Log.new cfg after).2 = .ok again ∧
    again.segments.map Segment.bounds <+: log.segments.map Segment.bounds ∧ again.nextOffset = .ok next ∧
    ∀ place, cfg.initalOffset ≤ place → place < next → ∃ record, system.attempts.lookup place = some record ∧
      ∀ buf, (again.read (after.applyAll (Log.new cfg after).1) place buf).2.2 = (record, .ok ())

-- The process dies when the store of a segment with records is gone and its index is not.
def tearsRecords (log : Log) (off count : Nat) : Bool :=
  match (log.truncate off).2[count]? with
  | some (.removeIndex base) =>
      log.segments.any fun segment => decide (segment.baseOffset = base) && decide (segment.nextOffset > base)
  | _ => false

section Crash

variable (cfg : Config) (terms : Terms) (dir : Dir) (log : Log) (before : List (Extent × Segment))
  (active : Extent × Segment) (up : Up cfg terms dir log before active)

include up

theorem up_bounds : log.segments.map Segment.bounds = (before ++ [active]).map fun pair => (pair.1.base, pair.1.next) := by
  rw [up.segments, List.map_map]
  apply List.map_congr_left
  intro pair member
  have loaded := up.loaded pair member
  simp only [Function.comp_apply, Segment.bounds, loaded.base, loaded.next]

theorem up_first (first : Segment) (head : log.segments.head? = some first) : first.baseOffset = cfg.initalOffset := by
  rw [up.segments, List.head?_map, Option.map_eq_some_iff] at head
  obtain ⟨pair, head, rfl⟩ := head
  rw [(up.loaded pair (List.mem_of_mem_head? head)).base]
  have chained := extents_chained before active _ up.extents
  rw [extentsOf] at chained
  cases all : before ++ [active] with
  | nil => simp at all
  | cons other rest =>
      rw [all] at head chained
      cases head
      exact chained.1

theorem up_pair_unique (first second : Extent × Segment) (here : first ∈ before ++ [active]) (there : second ∈ before ++ [active])
    (same : first.1.base = second.1.base) : first = second := by
  have ascending := extents_ascending _ _ _ up.extents
  rw [← extents_of_snoc, ← pair_bases] at ascending
  exact List.inj_on_of_nodup_map (ascending.imp Nat.ne_of_lt) here there same

variable (off count : Nat)

theorem not_torn (safe : ∀ base, (log.truncate off).2[count]? = some (.removeIndex base) →
    ∃ pair ∈ before ++ [active], pair.1.base = base ∧ pair.1.records = []) : tearsRecords log off count = false := by
  unfold tearsRecords
  split
  case h_2 => rfl
  rename_i base torn
  obtain ⟨pair, member, rfl, empty⟩ := safe base torn
  rw [List.any_eq_false, up.segments]
  intro segment listed
  obtain ⟨other, there, rfl⟩ := List.mem_map.mp listed
  have loaded := up.loaded other there
  rw [loaded.base, loaded.next, Bool.and_eq_true, decide_eq_true_eq, decide_eq_true_eq]
  rintro ⟨same, more⟩
  obtain rfl := up_pair_unique cfg terms dir log before active up other pair there member same
  rw [Extent.next, empty] at more
  exact Nat.lt_irrefl _ more

theorem torn_records (last : Extent × Segment) (member : last ∈ before ++ [active]) (filled : last.1.records ≠ [])
    (torn : (log.truncate off).2[count]? = some (.removeIndex last.1.base)) : tearsRecords log off count = true := by
  have loaded := up.loaded last member
  have some := List.length_pos_iff.mpr filled
  rw [tearsRecords, torn, up.segments]
  apply List.any_eq_true.mpr ⟨last.2, List.mem_map_of_mem member, ?_⟩
  rw [loaded.base, loaded.next, Bool.and_eq_true, decide_eq_true_eq, decide_eq_true_eq, Extent.next]
  exact ⟨rfl, by omega⟩

omit up

-- The first of the segments are all there.
theorem whole_truncated (system : System) (limit : terms.limit ≤ recoverableLimit cfg) (whole : terms.whole = true)
    (tells : Tells cfg system (dataOf (extentsOf before active))) (up : Up cfg terms dir log before active)
    (kept : List (Extent × Segment)) (last : Extent × Segment) (part : kept ++ [last] <+: before ++ [active]) (after : Dir)
    (down : Down cfg terms after (kept.map Prod.fst) last.1) : TruncatesWhole cfg system log after := by
  have narrow := limit.trans (recoverable_limit_narrow cfg)
  have fallen : Stands cfg terms after none (dataOf (kept.map Prod.fst ++ [last.1])) := .down _ _ down
  obtain ⟨again, opened⟩ := stands_opens cfg terms after _ fallen limit
  obtain ⟨pairs, pair, first, second, reopened⟩ := log_new_up cfg terms after _ _ down again opened
  have stands := stands_start cfg terms after _ fallen again opened
  have next := stands_next_offset cfg terms _ again _ stands
  refine ⟨again, _, opened, ?_, next, ?_⟩
  · have extents : (pairs ++ [pair]).map Prod.fst = (kept ++ [last]).map Prod.fst := by
      rw [List.map_append, first, List.map_singleton, second, List.map_append, List.map_singleton]
    have bounds := congrArg (List.map fun extent : Extent => (extent.base, extent.next)) extents
    rw [List.map_map, List.map_map] at bounds
    rw [up_bounds cfg terms _ again pairs pair reopened, up_bounds cfg terms dir log before active up]
    have short := part.map fun item => (item.1.base, item.1.next)
    exact bounds ▸ short
  · intro place least most
    obtain ⟨number, rfl⟩ := Nat.exists_eq_add_of_le least
    have found := List.getElem?_eq_getElem (l := dataOf (kept.map Prod.fst ++ [last.1])) (i := number) (by omega)
    have shared : dataOf (kept.map Prod.fst ++ [last.1]) <+: dataOf (extentsOf before active) := by
      obtain ⟨rest, all⟩ := part
      rw [extentsOf, ← all, List.map_append, List.map_append, List.map_singleton, dataOf, dataOf, contents_append _ _ (rest.map _),
        List.map_append]
      exact List.prefix_append _ _
    have asked : (dataOf (extentsOf before active))[number]? = (dataOf (kept.map Prod.fst ++ [last.1]))[number]? := by
      obtain ⟨rest, all⟩ := shared
      rw [← all, List.getElem?_append_left (by omega)]
    refine ⟨_, tells.attempted number _ (asked.trans found), fun buf => ?_⟩
    exact stands_whole cfg terms _ again _ stands whole narrow number _ buf found

-- The last segment promises records that its store does not have.
theorem hollow_not_whole (system : System) (kept : List Extent) (last : Extent) (after : Dir)
    (listing : Listing cfg after (kept ++ [last])) (filled : last.records ≠ []) (few : last.records.length ≤ 2 ^ 32)
    (room : entireWidth * last.records.length ≤ cfg.maxSizeBytes) (hollow : after.store last.base = []) :
    ¬ TruncatesWhole cfg system log after := by
  rintro ⟨again, next, opened, _, here, reads⟩
  obtain ⟨counted, active⟩ := log_new_counted cfg after _ listing again opened
  have some := List.length_pos_iff.mpr filled
  have long := counted.length_eq
  rw [List.length_append, List.length_singleton] at long
  have ends : again.nextOffset = .ok last.next := by
    have place : again.activeIndex = kept.length := by omega
    have own := counted.get (i := kept.length) (by simp) (by omega)
    rw [List.get_eq_getElem, List.get_eq_getElem] at own
    rw [Log.nextOffset, place, List.getElem?_eq_getElem (by omega)]
    simpa using own.next
  rw [ends] at here
  cases here
  have least := (chained_within _ _ _ _ listing.chained last (by simp)).1
  have bound : last.next = last.base + last.records.length := rfl
  obtain ⟨record, _, read⟩ := reads (last.next - 1) (by omega) (by omega)
  obtain ⟨segment, own, same⟩ := counted_read cfg after _ listing again counted last (by simp) (last.next - 1) (by omega) (by omega)
    (after.applyAll (Log.new cfg after).1) []
  rw [read [], read_hollow cfg last segment own some few _ _ room] at same
  · cases same
  · rw [Log.new, open_segments_stores]
    exact hollow

end Crash

theorem truncation_crash_iff (cfg : Config) (synced : cfg.syncWrites = true) (system : System)
    (run : Run (machine cfg) (fun system action => survivable cfg system action = true) system) (log : Log)
    (up : system.log = some log) (off : Nat) (least : ∀ first, log.segments.head? = some first → first.baseOffset ≤ off)
    (count : Nat) : TruncatesWhole cfg system log (system.dir.performAll ((log.truncate off).2.take count)) ↔
      tearsRecords log off count = false := by
  obtain ⟨data, stands, tells⟩ := standing_run cfg ⟨recoverableLimit cfg, true⟩ system
    (run_weaken (machine cfg) _ _ (survivable_permits cfg synced) system run)
  rw [up] at stands
  cases stands with
  | up _ before active opened =>
      have start : cfg.initalOffset ≤ off := by
        cases head : log.segments.head? with
        | none => rw [opened.segments] at head; simp at head
        | some first =>
            rw [← up_first cfg _ _ log before active opened first head]
            exact least first head
      have cut := truncate_cut cfg _ synced off rfl start before system.dir log active opened count
      rw [← opened.segments] at cut
      cases cut with
      | whole kept last part down safe =>
          exact iff_of_true (whole_truncated cfg _ _ log before active system le_rfl rfl tells opened kept last part _ down)
            (not_torn cfg _ _ log before active opened off count safe)
      | hollow kept last part filled torn listing empty =>
          have member : last ∈ before ++ [active] := part.subset (by simp)
          have held := (opened.loaded last member).held
          apply iff_of_false
          · exact hollow_not_whole cfg log system _ last.1 _ listing filled
              (held.few.trans (recoverable_limit_narrow cfg)) held.room empty
          · rw [torn_records cfg _ _ log before active opened off count last member filled torn]
            exact Bool.noConfusion

-- Three segments, the last two of which go.
def fiveRecords : List Action := [.start, .append [1], .append [2], .append [3], .append [4], .append [5]]

def fiveRecordsSystem : System := systemAfter (smallConfig true 2) (survivable (smallConfig true 2)) fiveRecords

def fiveRecordsLog : Log := fiveRecordsSystem.log.getD ⟨0, []⟩

def truncatedAfter (count : Nat) : Dir := fiveRecordsSystem.dir.performAll ((fiveRecordsLog.truncate 1).2.take count)

-- The process dies when one of them is gone and the other is closed.
theorem one_segment_gone :
    fiveRecordsLog.segments.map Segment.bounds = [(1, 3), (3, 5), (5, 6)] ∧
      TruncatesWhole (smallConfig true 2) fiveRecordsSystem fiveRecordsLog (truncatedAfter 4) :=
  ⟨by decide +kernel, (truncation_crash_iff (smallConfig true 2) rfl fiveRecordsSystem
    (system_after_run _ _ _ (by decide +kernel)) fiveRecordsLog (by decide +kernel) 1 (by decide +kernel) 4).mpr
    (by decide +kernel)⟩

-- It dies when the store of the last segment is gone and its index is not.
theorem index_left_behind :
    ¬ ∀ system, Run (machine (smallConfig true 2))
        (fun system action => survivable (smallConfig true 2) system action = true) system →
      ∀ log, system.log = some log → ∀ off, (∀ first, log.segments.head? = some first → first.baseOffset ≤ off) →
        ∀ count, TruncatesWhole (smallConfig true 2) system log
          (system.dir.performAll ((log.truncate off).2.take count)) := by
  intro always
  have run := system_after_run (smallConfig true 2) (survivable (smallConfig true 2)) fiveRecords (by decide +kernel)
  obtain ⟨again, next, opened, _, here, reads⟩ :=
    always fiveRecordsSystem run fiveRecordsLog (by decide +kernel) 1 (by decide +kernel) 2
  have told : (Log.new (smallConfig true 2) (truncatedAfter 2)).2.map (fun again => (again.nextOffset,
      (again.read ((truncatedAfter 2).applyAll (Log.new (smallConfig true 2) (truncatedAfter 2)).1) 5 []).2.2.2)) =
      .ok (.ok 6, .error (.io .unexpectedEof "failed to fill whole buffer")) := by decide +kernel
  rw [truncatedAfter, opened] at told
  obtain ⟨ends, refused⟩ := Prod.mk.inj (Except.ok.inj told)
  rw [ends] at here
  cases here
  obtain ⟨record, _, read⟩ := reads 5 (by decide) (by decide)
  rw [read []] at refused
  cases refused

end RaftLog.SegmentLog
