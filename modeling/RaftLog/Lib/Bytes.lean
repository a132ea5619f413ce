import Mathlib

set_option autoImplicit false

namespace RaftLog.Lib

abbrev Bytes := List UInt8

-- Big-endian digits of base 256, cut to the width.
def toBytes : Nat → Nat → Bytes
  | 0, _ => []
  | width + 1, value => toBytes width (value / 256) ++ [UInt8.ofNat value]

def ofBytes (bytes : Bytes) : Nat := bytes.foldl (fun value byte => value * 256 + byte.toNat) 0

@[simp] theorem length_to_bytes (width value : Nat) : (toBytes width value).length = width := by
  induction width generalizing value with
  | zero => rfl
  | succ width ih => simp [toBytes, ih]

theorem of_bytes_snoc (bytes : Bytes) (byte : UInt8) : ofBytes (bytes ++ [byte]) = ofBytes bytes * 256 + byte.toNat := by
  simp [ofBytes]

theorem of_to_bytes (width value : Nat) (fits : value < 256 ^ width) : ofBytes (toBytes width value) = value := by
  induction width generalizing value with
  | zero =>
      have zero : value = 0 := Nat.lt_one_iff.mp fits
      rw [zero]
      rfl
  | succ width ih =>
      have high : value / 256 < 256 ^ width := by
        apply (Nat.div_lt_iff_lt_mul (by decide)).mpr
        simpa only [Nat.pow_succ] using fits
      rw [toBytes, of_bytes_snoc, ih (value / 256) high, UInt8.toNat_ofNat']
      omega

theorem to_of_bytes (bytes : Bytes) : toBytes bytes.length (ofBytes bytes) = bytes := by
  induction bytes using List.reverseRecOn with
  | nil => rfl
  | append_singleton bytes byte ih =>
      have small : byte.toNat < 256 := byte.toNat_lt
      have high : (ofBytes bytes * 256 + byte.toNat) / 256 = ofBytes bytes := by omega
      have low : UInt8.ofNat (ofBytes bytes * 256 + byte.toNat) = byte := by
        apply UInt8.toNat_inj.mp
        rw [UInt8.toNat_ofNat']
        omega
      rw [List.length_append, List.length_singleton, of_bytes_snoc, toBytes, high, low, ih]

theorem of_bytes_lt (bytes : Bytes) : ofBytes bytes < 256 ^ bytes.length := by
  induction bytes using List.reverseRecOn with
  | nil => exact Nat.one_pos
  | append_singleton bytes byte ih =>
      have small : byte.toNat < 256 := byte.toNat_lt
      rw [of_bytes_snoc, List.length_append, List.length_singleton, Nat.pow_succ]
      omega

-- Higher digits are cut off anyway.
theorem to_bytes_mod (width value : Nat) : toBytes width (value % 256 ^ width) = toBytes width value := by
  induction width generalizing value with
  | zero => rfl
  | succ width ih =>
      have high : value % 256 ^ (width + 1) / 256 = value / 256 % 256 ^ width := by
        rw [Nat.pow_succ, Nat.mul_comm, Nat.mod_mul_right_div_self]
      have low : value % 256 ^ (width + 1) % 256 = value % 256 := Nat.mod_mod_of_dvd value (dvd_pow_self 256 (Nat.succ_ne_zero width))
      have digit : UInt8.ofNat (value % 256 ^ (width + 1)) = UInt8.ofNat value := UInt8.toNat_inj.mp low
      rw [toBytes, toBytes, high, ih, digit]

def slice (bytes : Bytes) (start length : Nat) : Bytes := (bytes.drop start).take length

theorem slice_length (bytes : Bytes) (start length : Nat) (within : start + length ≤ bytes.length) :
    (slice bytes start length).length = length := by
  simp only [slice, List.length_take, List.length_drop]
  omega

theorem slice_digits (file : Bytes) (start width : Nat) (within : start + width ≤ file.length) :
    toBytes width (ofBytes (slice file start width)) = slice file start width := by
  have inverse := to_of_bytes (slice file start width)
  rwa [slice_length file start width within] at inverse

theorem slice_append (bytes more : Bytes) (start length : Nat) (within : start + length ≤ bytes.length) :
    slice (bytes ++ more) start length = slice bytes start length := by
  rw [slice, slice, List.drop_append_of_le_length (by omega), List.take_append_of_le_length]
  rw [List.length_drop]
  omega

theorem slice_split (bytes : Bytes) (start length : Nat) :
    bytes.drop start = slice bytes start length ++ bytes.drop (start + length) := by
  rw [slice, ← List.drop_drop, List.take_append_drop]

theorem slice_middle (before middle after : Bytes) (start length : Nat) (starts : start = before.length)
    (ends : length = middle.length) : slice (before ++ (middle ++ after)) start length = middle := by
  subst starts ends
  simp [slice]

def overwrite (bytes : Bytes) (start : Nat) (written : Bytes) : Bytes :=
  bytes.take start ++ written ++ bytes.drop (start + written.length)

theorem overwrite_middle (before old after written : Bytes) (start : Nat) (starts : start = before.length)
    (same : written.length = old.length) :
    overwrite (before ++ (old ++ after)) start written = before ++ (written ++ after) := by
  subst starts
  rw [overwrite, List.take_left, same, ← List.append_assoc before, ← List.length_append, List.drop_left]
  exact List.append_assoc before written after

-- What `set_len` makes of a file and `resize` of a vector: cut, or extended by zeros.
def resize (bytes : Bytes) (length : Nat) : Bytes := bytes.take length ++ List.replicate (length - bytes.length) 0

@[simp] theorem length_resize (bytes : Bytes) (length : Nat) : (resize bytes length).length = length := by
  simp only [resize, List.length_append, List.length_take, List.length_replicate]
  omega

theorem resize_longer (bytes : Bytes) (length : Nat) (longer : bytes.length ≤ length) :
    resize bytes length = bytes ++ List.replicate (length - bytes.length) 0 := by
  rw [resize, List.take_of_length_le longer]

theorem resize_prefix (kept cut : Bytes) (length : Nat) (ends : length = kept.length) :
    resize (kept ++ cut) length = kept := by
  subst ends
  simp [resize]

end RaftLog.Lib
