import RaftLog.SegmentLog.Model

set_option autoImplicit false

namespace RaftLog.Scanning

open Lib SegmentLog

-- What read_dir gives of an entry, its name with to_string_lossy.
structure Entry where
  name : List Char
  isDir : Bool
deriving DecidableEq, Repr

def stripSuffix (suffix name : List Char) : Option (List Char) :=
  if suffix <:+ name then some (name.take (name.length - suffix.length)) else none

-- One digit of str::parse::<u64>, with the checks for overflow.
def pushDigit (value : Nat) (digit : Char) : Option Nat :=
  if digit.isDigit && decide (10 * value + (digit.toNat - 48) ≤ u64Max) then some (10 * value + (digit.toNat - 48)) else none

def parseDigits (digits : List Char) : Option Nat := digits.foldlM pushDigit 0

def parseU64 : List Char → Option Nat
  | [] => none
  | '+' :: digits => if digits = [] then none else parseDigits digits
  | digits => parseDigits digits

def storeSuffix : List Char := ['.', 's', 't', 'o', 'r', 'e']

def indexSuffix : List Char := ['.', 'i', 'n', 'd', 'e', 'x']

-- The offset that an entry's name stands for.
def offsetOf (entry : Entry) : Option Nat :=
  if entry.isDir then none
  else ((stripSuffix storeSuffix entry.name).or (stripSuffix indexSuffix entry.name)).bind parseU64

def gather (offsets : List Nat) : List Entry → List Nat
  | [] => offsets
  | entry :: rest =>
      match offsetOf entry with
      | none => gather offsets rest
      | some off => gather (if off ∈ offsets then offsets else offsets ++ [off]) rest

def scan (entries : List Entry) : List Nat := (gather [] entries).insertionSort (· ≤ ·)

-- Log::new behind the walk through the directory.
def openListed (cfg : Config) (entries : List Entry) (dir : Dir) : List Write × Except Failure Log :=
  let offsets := if scan entries = [] then [cfg.initalOffset] else scan entries
  let (writes, opened) := openSegments cfg dir offsets
  (writes, opened.map fun segments => ⟨segments.length - 1, segments⟩)

-- The names that Segment::new gives to its files.
def storeName (base : Nat) : List Char := Nat.toDigits 10 base ++ storeSuffix

def indexName (base : Nat) : List Char := Nat.toDigits 10 base ++ indexSuffix

section Scan

theorem mem_gather (entries : List Entry) (offsets : List Nat) (off : Nat) :
    off ∈ gather offsets entries ↔ off ∈ offsets ∨ ∃ entry ∈ entries, offsetOf entry = some off := by
  induction entries generalizing offsets with
  | nil => simp [gather]
  | cons entry rest ih =>
      rw [gather]
      cases found : offsetOf entry with
      | none =>
          rw [ih]
          simp [found]
      | some other =>
          dsimp only
          rw [ih]
          simp only [List.mem_cons, exists_eq_or_imp, found, Option.some.injEq, ← or_assoc]
          refine or_congr_left ?_
          split
          · rename_i known
            exact ⟨.inl, fun either => either.elim id fun same => same ▸ known⟩
          · rw [List.mem_append, List.mem_singleton]
            exact or_congr_right eq_comm

theorem gather_nodup (entries : List Entry) (offsets : List Nat) (apart : offsets.Nodup) : (gather offsets entries).Nodup := by
  induction entries generalizing offsets with
  | nil => exact apart
  | cons entry rest ih =>
      rw [gather]
      cases offsetOf entry with
      | none => exact ih offsets apart
      | some off =>
          refine ih _ ?_
          split
          · exact apart
          · rename_i new
            exact List.Nodup.append apart (List.nodup_singleton off) (by simpa using new)

variable (entries : List Entry)

theorem mem_scan (off : Nat) : off ∈ scan entries ↔ ∃ entry ∈ entries, offsetOf entry = some off := by
  rw [scan, List.mem_insertionSort, mem_gather]
  simp

theorem scan_ascending : (scan entries).Pairwise (· < ·) := by
  have sorted : (scan entries).Pairwise (· ≤ ·) := List.pairwise_insertionSort _ _
  have apart : (scan entries).Nodup := (List.perm_insertionSort _ _).nodup_iff.mpr (gather_nodup entries [] .nil)
  exact (sorted.and apart).imp fun both => Nat.lt_of_le_of_ne both.1 both.2

end Scan

section Names

theorem parse_digits_append (before after : List Char) :
    parseDigits (before ++ after) = (parseDigits before).bind fun value => after.foldlM pushDigit value :=
  List.foldlM_append ..

-- A number is read back from its digits, the last one first taken off.
theorem parse_digits_of (number : Nat) (typed : number ≤ u64Max) : parseDigits (Nat.toDigits 10 number) = some number := by
  induction number using Nat.strongRecOn with
  | ind number ih =>
      have pushed : ∀ value digit, digit < 10 → 10 * value + digit ≤ u64Max →
          pushDigit value digit.digitChar = some (10 * value + digit) := by
        intro value digit small fits
        rw [pushDigit, Nat.isDigit_digitChar, Nat.toNat_digitChar_sub_48_of_lt_ten small, decide_eq_true small,
          decide_eq_true fits]
        rfl
      by_cases single : number < 10
      · rw [Nat.toDigits_of_lt_base single]
        have digit := pushed 0 number single (by omega)
        rw [Nat.mul_zero, Nat.zero_add] at digit
        rw [parseDigits, List.foldlM_cons, digit]
        rfl
      · have split := Nat.div_add_mod number 10
        rw [Nat.toDigits_of_base_le (by decide) (Nat.le_of_not_lt single), parse_digits_append,
          ih (number / 10) (Nat.div_lt_self (by omega) (by decide)) ((Nat.div_le_self _ _).trans typed), Option.bind_some,
          List.foldlM_cons, pushed (number / 10) (number % 10) (Nat.mod_lt _ (by decide)) (split.le.trans typed), split]
        rfl

theorem parse_decimal (number : Nat) (typed : number ≤ u64Max) : parseU64 (Nat.toDigits 10 number) = some number := by
  have digits : ∀ digit ∈ Nat.toDigits 10 number, digit.isDigit = true :=
    fun digit member => Nat.isDigit_of_mem_toDigits (by decide) (by decide) member
  have parsed := parse_digits_of number typed
  have written := List.ne_nil_of_length_pos (Nat.length_toDigits_pos (b := 10) (n := number))
  generalize Nat.toDigits 10 number = stem at digits parsed written
  -- a number is written without a sign
  unfold parseU64
  split
  · exact absurd rfl written
  · exact absurd (digits '+' List.mem_cons_self) (by decide)
  · exact parsed

theorem strip_own (stem suffix : List Char) : stripSuffix suffix (stem ++ suffix) = some stem := by
  rw [stripSuffix, if_pos (List.suffix_append stem suffix), List.length_append, Nat.add_sub_cancel, List.take_left]

theorem strip_other (stem suffix other : List Char) (long : suffix.length = other.length) (apart : suffix ≠ other) :
    stripSuffix other (stem ++ suffix) = none := by
  refine if_neg fun ends => apart ?_
  exact (List.suffix_of_suffix_length_le (List.suffix_append stem suffix) ends long.le).eq_of_length long

theorem store_offset (base : Nat) (typed : base ≤ u64Max) : offsetOf ⟨storeName base, false⟩ = some base := by
  rw [offsetOf, if_neg Bool.false_ne_true, storeName, strip_own, Option.some_or, Option.bind_some]
  exact parse_decimal base typed

theorem index_offset (base : Nat) (typed : base ≤ u64Max) : offsetOf ⟨indexName base, false⟩ = some base := by
  rw [offsetOf, if_neg Bool.false_ne_true, indexName, strip_other _ indexSuffix storeSuffix rfl (by decide), strip_own,
    Option.none_or, Option.bind_some]
  exact parse_decimal base typed

end Names

-- A directory as read_dir lists it: the files of the segments, and others, in any order.
structure Lists (entries : List Entry) (dir : Dir) : Prop where
  typed : ∀ base, dir.has base → base ≤ u64Max
  stores : ∀ base ∈ dir.stores, ⟨storeName base, false⟩ ∈ entries
  indexes : ∀ base ∈ dir.indexes, ⟨indexName base, false⟩ ∈ entries
  others : ∀ entry ∈ entries, (∃ base, dir.has base ∧ (entry = ⟨storeName base, false⟩ ∨ entry = ⟨indexName base, false⟩)) ∨
    offsetOf entry = none

theorem scan_bases (entries : List Entry) (dir : Dir) (lists : Lists entries dir) : scan entries = dir.bases := by
  refine (bases_eq dir (scan entries) (scan_ascending entries) fun base => ?_).symm
  rw [mem_scan]
  constructor
  · intro present
    have typed := lists.typed base present
    rcases present with store | index
    · exact ⟨_, lists.stores base store, store_offset base typed⟩
    · exact ⟨_, lists.indexes base index, index_offset base typed⟩
  · rintro ⟨entry, listed, found⟩
    rcases lists.others entry listed with ⟨other, present, rfl | rfl⟩ | foreign
    · rw [store_offset other (lists.typed other present)] at found
      cases found
      exact present
    · rw [index_offset other (lists.typed other present)] at found
      cases found
      exact present
    · rw [foreign] at found
      cases found

-- The walk finds each offset that some name stands for, once and in ascending order; and the
-- log that is opened is that of the segments' files, whatever lies beside them.
theorem directory_scanned (entries : List Entry) : (scan entries).Pairwise (· < ·) ∧
    (∀ off, off ∈ scan entries ↔ ∃ entry ∈ entries, offsetOf entry = some off) ∧
    ∀ cfg dir, Lists entries dir → openListed cfg entries dir = Log.new cfg dir := by
  refine ⟨scan_ascending entries, mem_scan entries, fun cfg dir lists => ?_⟩
  rw [openListed, Log.new, scan_bases entries dir lists]

-- The index of the second segment is missing.
def twoSegments : Dir := ((emptyDir.putStore 0 []).putIndex 0 []).putStore 12 []

def crowdedListing : List Entry :=
  [⟨storeName 12, false⟩, ⟨storeName 7, true⟩, ⟨indexName 0, false⟩, ⟨['a'] ++ storeSuffix, false⟩, ⟨storeName 0, false⟩,
    ⟨['-', '1'] ++ indexSuffix, false⟩]

theorem crowded_listing_opens : openListed ⟨0, true, 24, 1024⟩ crowdedListing twoSegments = Log.new ⟨0, true, 24, 1024⟩ twoSegments := by
  have stores : ∀ base, base ∈ twoSegments.stores ↔ base = 12 ∨ base = 0 ∨ base ∈ emptyDir.stores :=
    fun base => (AList.mem_insert _).trans (or_congr_right (AList.mem_insert _))
  have indexes : ∀ base, base ∈ twoSegments.indexes ↔ base = 0 ∨ base ∈ emptyDir.indexes := fun base => AList.mem_insert _
  simp only [show ∀ base, base ∉ emptyDir.stores from fun base => AList.notMem_empty base, or_false] at stores
  simp only [show ∀ base, base ∉ emptyDir.indexes from fun base => AList.notMem_empty base, or_false] at indexes
  refine (directory_scanned crowdedListing).2.2 _ twoSegments ⟨?_, ?_, ?_, ?_⟩
  · rintro base (store | index)
    · rcases (stores base).mp store with rfl | rfl <;> decide
    · rw [(indexes base).mp index]
      decide
  · intro base store
    rcases (stores base).mp store with rfl | rfl <;> decide
  · intro base index
    rw [(indexes base).mp index]
    decide
  · intro entry listed
    simp only [crowdedListing, List.mem_cons, List.not_mem_nil, or_false] at listed
    rcases listed with rfl | rfl | rfl | rfl | rfl | rfl
    · exact .inl ⟨12, .inl ((stores 12).mpr (.inl rfl)), .inl rfl⟩
    · exact .inr rfl
    · exact .inl ⟨0, .inr ((indexes 0).mpr rfl), .inr rfl⟩
    · exact .inr (by decide)
    · exact .inl ⟨0, .inl ((stores 0).mpr (.inr rfl)), .inl rfl⟩
    · exact .inr (by decide)

end RaftLog.Scanning
