import RaftLog.Lib.Chain
import RaftLog.SegmentLog.Segments

set_option autoImplicit false

namespace RaftLog.SegmentLog

open Lib

-- The extents of a log follow each other; only the last may be empty, and only it must
-- have lost nothing.
structure Extents (start : Nat) (before : List Extent) (active : Extent) : Prop where
  chained : Chained Extent.base Extent.records start (before ++ [active])
  filled : ∀ extent ∈ before, extent.records ≠ []
  whole : active.lost = []

theorem extents_ascending (start : Nat) (before : List Extent) (active : Extent) (extents : Extents start before active) :
    ((before ++ [active]).map Extent.base).Pairwise (· < ·) :=
  chained_ascending Extent.base Extent.records start before active extents.filled extents.chained

-- No process has the log open. A directory without files stands for the first segment.
structure Down (cfg : Config) (terms : Terms) (dir : Dir) (before : List Extent) (active : Extent) : Prop where
  extents : Extents cfg.initalOffset before active
  held : ∀ extent ∈ before ++ [active], Held cfg terms dir [] extent
  listed : (∀ base, dir.has base ↔ base ∈ (before ++ [active]).map Extent.base) ∨
    (∀ base, ¬ dir.has base) ∧ before = [] ∧ active = ⟨cfg.initalOffset, [], []⟩

structure Up (cfg : Config) (terms : Terms) (dir : Dir) (log : Log) (before : List (Extent × Segment))
    (active : Extent × Segment) : Prop where
  extents : Extents cfg.initalOffset (before.map Prod.fst) active.1
  loaded : ∀ pair ∈ before ++ [active], Loaded cfg terms dir pair.1 pair.2
  listed : ∀ base, dir.has base ↔ base ∈ (before ++ [active]).map fun pair => pair.1.base
  segments : log.segments = (before ++ [active]).map Prod.snd
  activeIndex : log.activeIndex = before.length

section Open

variable (cfg : Config) (terms : Terms)

theorem open_segments_base (offsets : List Nat) (dir : Dir) :
    ∀ write ∈ (openSegments cfg dir offsets).1, write.base ∈ offsets := by
  induction offsets generalizing dir with
  | nil => simp [openSegments]
  | cons off rest ih =>
      intro write member
      rw [openSegments] at member
      cases opened : Segment.new cfg dir off with
      | mk writes result =>
          have own : ∀ write ∈ writes, write.base = off := by
            have all := segment_new_base cfg dir off
            rwa [opened] at all
          rw [opened] at member
          cases result with
          | error failure => exact own write member ▸ List.mem_cons_self
          | ok segment =>
              rcases List.mem_append.mp member with here | later
              · exact own write here ▸ List.mem_cons_self
              · exact List.mem_cons_of_mem _ (ih _ write later)

-- The first segment is opened, then the others behind its writes.
theorem open_segments_cons (dir : Dir) (off : Nat) (rest : List Nat) (segments : List Segment)
    (opened : (openSegments cfg dir (off :: rest)).2 = .ok segments) :
    ∃ segment later, (Segment.new cfg dir off).2 = .ok segment ∧
      (openSegments cfg (dir.applyAll (Segment.new cfg dir off).1) rest).2 = .ok later ∧ segments = segment :: later ∧
      (openSegments cfg dir (off :: rest)).1 =
        (Segment.new cfg dir off).1 ++ (openSegments cfg (dir.applyAll (Segment.new cfg dir off).1) rest).1 := by
  rw [openSegments] at opened ⊢
  cases new : Segment.new cfg dir off with
  | mk writes result =>
      rw [new] at opened
      cases result with
      | error failure => cases opened
      | ok segment =>
          cases found : (openSegments cfg (dir.applyAll writes) rest).2 with
          | error failure =>
              simp only [found, Except.map] at opened
              cases opened
          | ok later =>
              simp only [found, Except.map] at opened
              cases opened
              exact ⟨segment, later, rfl, rfl, rfl, rfl⟩

theorem log_new_inv (dir : Dir) (log : Log) (opened : (Log.new cfg dir).2 = .ok log) :
    ∃ segments, (openSegments cfg dir (if dir.bases = [] then [cfg.initalOffset] else dir.bases)).2 = .ok segments ∧
      log = ⟨segments.length - 1, segments⟩ := by
  rw [Log.new] at opened
  cases found : (openSegments cfg dir (if dir.bases = [] then [cfg.initalOffset] else dir.bases)).2 with
  | error failure =>
      simp only [found, Except.map] at opened
      cases opened
  | ok segments =>
      simp only [found, Except.map] at opened
      cases opened
      exact ⟨segments, rfl, rfl⟩

-- Opening one segment leaves the extents of the others held.
theorem open_keeps_held (dir : Dir) (off : Nat) (extent : Extent) (apart : extent.base ≠ off)
    (held : Held cfg terms dir [] extent) : Held cfg terms (dir.applyAll (Segment.new cfg dir off).1) [] extent := by
  have others : ∀ write ∈ (Segment.new cfg dir off).1, extent.base ≠ write.base := by
    intro write member
    rw [segment_new_base cfg dir off write member]
    exact apart
  apply held_same cfg terms dir
  · exact apply_all_store_other _ _ dir others
  · exact apply_all_index_other _ _ dir others
  · exact held

theorem open_segments_loaded (extents : List Extent) (dir : Dir) (apart : (extents.map Extent.base).Nodup)
    (held : ∀ extent ∈ extents, Held cfg terms dir [] extent) (segments : List Segment)
    (opened : (openSegments cfg dir (extents.map Extent.base)).2 = .ok segments) :
    ∃ pairs : List (Extent × Segment), pairs.map Prod.fst = extents ∧ pairs.map Prod.snd = segments ∧
      ∀ pair ∈ pairs, Loaded cfg terms (dir.applyAll (openSegments cfg dir (extents.map Extent.base)).1) pair.1 pair.2 := by
  induction extents generalizing dir segments with
  | nil =>
      cases opened
      exact ⟨[], rfl, rfl, by simp⟩
  | cons extent rest ih =>
      obtain ⟨fresh, apart⟩ := List.nodup_cons.mp apart
      rw [List.map_cons] at opened ⊢
      obtain ⟨segment, later, new, found, rfl, writes⟩ := open_segments_cons cfg dir _ _ segments opened
      have loaded := (segment_new_ok cfg dir terms extent (held extent List.mem_cons_self) segment new).1
      have others : ∀ other ∈ rest, Held cfg terms (dir.applyAll (Segment.new cfg dir extent.base).1) [] other := by
        intro other member
        apply open_keeps_held cfg terms dir extent.base other ?_ (held other (List.mem_cons_of_mem _ member))
        intro same
        exact fresh (same ▸ List.mem_map_of_mem member)
      obtain ⟨pairs, extents, segments, all⟩ := ih _ apart others later found
      refine ⟨(extent, segment) :: pairs, by rw [← extents]; rfl, by rw [← segments]; rfl, ?_⟩
      rw [writes, apply_all_append]
      intro pair member
      rcases List.mem_cons.mp member with rfl | tail
      · have untouched : ∀ write ∈ (openSegments cfg (dir.applyAll (Segment.new cfg dir extent.base).1) (rest.map Extent.base)).1,
            extent.base ≠ write.base := by
          intro write written same
          exact fresh (same ▸ open_segments_base cfg _ _ write written)
        apply loaded_same cfg terms (dir.applyAll (Segment.new cfg dir extent.base).1)
        · exact apply_all_store_other _ _ _ untouched
        · exact apply_all_index_other _ _ _ untouched
        · exact loaded
      · exact all pair tail

theorem open_segments_has (offsets : List Nat) (dir : Dir) (segments : List Segment)
    (opened : (openSegments cfg dir offsets).2 = .ok segments) (other : Nat) :
    (dir.applyAll (openSegments cfg dir offsets).1).has other ↔ dir.has other ∨ other ∈ offsets := by
  induction offsets generalizing dir segments with
  | nil => simp [openSegments]
  | cons off rest ih =>
      obtain ⟨segment, later, _, found, _, writes⟩ := open_segments_cons cfg dir off rest segments opened
      rw [writes, apply_all_append, ih _ later found, segment_new_has cfg dir off other, List.mem_cons, or_assoc]

-- An extent that Log::new can count the entries of.
def Countable (cfg : Config) (dir : Dir) (extent : Extent) : Prop :=
  Recoverable extent.records.length cfg.maxSizeBytes ∨
    (dir.index extent.base).length = entireWidth * extent.records.length ∧ extent.records.length < 2 ^ 32

theorem open_segments_opens (extents : List Extent) (dir : Dir) (apart : (extents.map Extent.base).Nodup)
    (held : ∀ extent ∈ extents, Held cfg terms dir [] extent) (countable : ∀ extent ∈ extents, Countable cfg dir extent) :
    ∃ segments, (openSegments cfg dir (extents.map Extent.base)).2 = .ok segments := by
  induction extents generalizing dir with
  | nil => exact ⟨[], rfl⟩
  | cons extent rest ih =>
      obtain ⟨fresh, apart⟩ := List.nodup_cons.mp apart
      rw [List.map_cons, openSegments]
      have first := segment_new_opens cfg dir terms extent (held extent List.mem_cons_self) (countable extent List.mem_cons_self)
      have different : ∀ other ∈ rest, other.base ≠ extent.base := by
        intro other member same
        exact fresh (same ▸ List.mem_map_of_mem member)
      have others : ∀ other ∈ rest, Held cfg terms (dir.applyAll (Segment.new cfg dir extent.base).1) [] other := by
        intro other member
        exact open_keeps_held cfg terms dir extent.base other (different other member)
          (held other (List.mem_cons_of_mem _ member))
      have still : ∀ other ∈ rest, Countable cfg (dir.applyAll (Segment.new cfg dir extent.base).1) other := by
        intro other member
        have untouched : ∀ write ∈ (Segment.new cfg dir extent.base).1, other.base ≠ write.base := by
          intro write written
          rw [segment_new_base cfg dir extent.base write written]
          exact different other member
        rw [Countable, apply_all_index_other _ _ dir untouched]
        exact countable other (List.mem_cons_of_mem _ member)
      cases new : Segment.new cfg dir extent.base with
      | mk writes result =>
          rw [new] at first others still
          obtain ⟨segment, rfl⟩ := first
          obtain ⟨later, found⟩ := ih _ apart others still
          exact ⟨segment :: later, by simp only [found, Except.map]⟩

end Open

section New

variable (cfg : Config) (terms : Terms) (dir : Dir) (before : List Extent) (active : Extent)
  (down : Down cfg terms dir before active)

include down

theorem down_offsets : (if dir.bases = [] then [cfg.initalOffset] else dir.bases) = (before ++ [active]).map Extent.base := by
  rcases down.listed with listed | ⟨none, rfl, rfl⟩
  · have bases := bases_eq dir _ (extents_ascending _ before active down.extents) listed
    rw [bases, if_neg (by simp)]
  · have bases := bases_eq dir [] .nil fun base => by simp [none base]
    rw [if_pos bases]
    rfl

theorem down_lists (base : Nat) (present : dir.has base) : base ∈ (before ++ [active]).map Extent.base := by
  rcases down.listed with listed | ⟨none, _⟩
  · exact (listed base).mp present
  · exact absurd present (none base)

-- Opening loses nothing and adds nothing.
theorem log_new_up (log : Log) (opened : (Log.new cfg dir).2 = .ok log) :
    ∃ pairs pair, pairs.map Prod.fst = before ∧ pair.1 = active ∧
      Up cfg terms (dir.applyAll (Log.new cfg dir).1) log pairs pair := by
  have offsets := down_offsets cfg terms dir before active down
  have apart := (extents_ascending _ before active down.extents).imp Nat.ne_of_lt
  obtain ⟨segments, found, rfl⟩ := log_new_inv cfg dir log opened
  rw [offsets] at found
  obtain ⟨all, extents, rfl, loaded⟩ := open_segments_loaded cfg terms _ dir apart down.held segments found
  obtain ⟨pairs, last, rfl, same, single⟩ := List.map_eq_append_iff.mp extents
  obtain ⟨pair, rfl, here⟩ := List.map_eq_singleton_iff.mp single
  subst same here
  have writes : (Log.new cfg dir).1 = (openSegments cfg dir ((pairs.map Prod.fst ++ [pair.1]).map Extent.base)).1 := by
    rw [Log.new, offsets]
  rw [writes]
  refine ⟨pairs, pair, rfl, rfl, down.extents, loaded, ?_, rfl, by simp⟩
  intro base
  have names : (pairs.map Prod.fst ++ [pair.1]).map Extent.base = (pairs ++ [pair]).map fun pair => pair.1.base := by simp
  have there := down_lists cfg terms dir _ _ down base
  rw [open_segments_has cfg _ dir _ found base, ← names]
  exact or_iff_right_of_imp there

theorem log_new_opens (countable : ∀ extent ∈ before ++ [active], Countable cfg dir extent) :
    ∃ log, (Log.new cfg dir).2 = .ok log := by
  have offsets := down_offsets cfg terms dir before active down
  have apart := (extents_ascending _ before active down.extents).imp Nat.ne_of_lt
  obtain ⟨segments, found⟩ := open_segments_opens cfg terms _ dir apart down.held countable
  exact ⟨⟨segments.length - 1, segments⟩, by rw [Log.new, offsets]; simp only [found, Except.map]⟩

end New

end RaftLog.SegmentLog
