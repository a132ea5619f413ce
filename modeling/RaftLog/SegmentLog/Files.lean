import RaftLog.Lib.Bytes

set_option autoImplicit false

namespace RaftLog.SegmentLog

open Lib

-- The files <base>.store and <base>.index of a log directory. What a process has
-- mapped of an index is the file itself.
structure Dir where
  stores : AList fun _ : Nat => Bytes
  indexes : AList fun _ : Nat => Bytes

def emptyDir : Dir := ⟨∅, ∅⟩

-- A file that is not there reads as an empty one.
def Dir.store (dir : Dir) (base : Nat) : Bytes := (dir.stores.lookup base).getD []

def Dir.index (dir : Dir) (base : Nat) : Bytes := (dir.indexes.lookup base).getD []

def Dir.has (dir : Dir) (base : Nat) : Prop := base ∈ dir.stores ∨ base ∈ dir.indexes

-- The primitive writes, the only points between which a process can die.
inductive Write where
  | createStore (base : Nat)
  | createIndex (base : Nat)
  | appendStore (base : Nat) (bytes : Bytes)
  | setIndexLen (base length : Nat)
  | fillIndex (base : Nat)
  | copyOffset (base start : Nat) (bytes : Bytes)
  | copyPosition (base start : Nat) (bytes : Bytes)
deriving DecidableEq, Repr

def Write.base : Write → Nat
  | .createStore base | .createIndex base | .appendStore base _ | .setIndexLen base _ | .fillIndex base
  | .copyOffset base _ _ | .copyPosition base _ _ => base

def Dir.putStore (dir : Dir) (base : Nat) (bytes : Bytes) : Dir := { dir with stores := dir.stores.insert base bytes }

def Dir.putIndex (dir : Dir) (base : Nat) (bytes : Bytes) : Dir := { dir with indexes := dir.indexes.insert base bytes }

def Dir.apply (dir : Dir) : Write → Dir
  | .createStore base => dir.putStore base (dir.store base)
  | .createIndex base => dir.putIndex base (dir.index base)
  | .appendStore base bytes => dir.putStore base (dir.store base ++ bytes)
  | .setIndexLen base length => dir.putIndex base (resize (dir.index base) length)
  | .fillIndex base => dir.putIndex base (List.replicate (dir.index base).length 0xFF)
  | .copyOffset base start bytes | .copyPosition base start bytes =>
      dir.putIndex base (overwrite (dir.index base) start bytes)

def Dir.applyAll (dir : Dir) (writes : List Write) : Dir := writes.foldl Dir.apply dir

@[simp] theorem apply_all_nil (dir : Dir) : dir.applyAll [] = dir := rfl

@[simp] theorem apply_all_cons (dir : Dir) (write : Write) (writes : List Write) :
    dir.applyAll (write :: writes) = (dir.apply write).applyAll writes := rfl

@[simp] theorem apply_all_append (dir : Dir) (first second : List Write) :
    dir.applyAll (first ++ second) = (dir.applyAll first).applyAll second := List.foldl_append

section Put

variable (dir : Dir) (base other : Nat) (bytes : Bytes)

@[simp] theorem put_store_store : (dir.putStore base bytes).store base = bytes := by
  simp [Dir.putStore, Dir.store]

@[simp] theorem put_store_index : (dir.putStore base bytes).index other = dir.index other := rfl

@[simp] theorem put_index_index : (dir.putIndex base bytes).index base = bytes := by
  simp [Dir.putIndex, Dir.index]

@[simp] theorem put_index_store : (dir.putIndex base bytes).store other = dir.store other := rfl

theorem put_store_other (apart : other ≠ base) : (dir.putStore base bytes).store other = dir.store other := by
  simp [Dir.putStore, Dir.store, AList.lookup_insert_ne apart]

theorem put_index_other (apart : other ≠ base) : (dir.putIndex base bytes).index other = dir.index other := by
  simp [Dir.putIndex, Dir.index, AList.lookup_insert_ne apart]

theorem put_store_has : (dir.putStore base bytes).has other ↔ other = base ∨ dir.has other := by
  simp only [Dir.has, Dir.putStore, AList.mem_insert, or_assoc]

theorem put_index_has : (dir.putIndex base bytes).has other ↔ other = base ∨ dir.has other := by
  simp only [Dir.has, Dir.putIndex, AList.mem_insert, or_left_comm]

end Put

theorem apply_store_other (dir : Dir) (write : Write) (other : Nat) (apart : other ≠ write.base) :
    (dir.apply write).store other = dir.store other := by
  cases write with
  | createStore base | appendStore base bytes => exact put_store_other dir base other _ apart
  | createIndex | setIndexLen | fillIndex | copyOffset | copyPosition => rfl

theorem apply_index_other (dir : Dir) (write : Write) (other : Nat) (apart : other ≠ write.base) :
    (dir.apply write).index other = dir.index other := by
  cases write with
  | createStore | appendStore => rfl
  | createIndex base | setIndexLen base _ | fillIndex base | copyOffset base _ _ | copyPosition base _ _ =>
      exact put_index_other dir base other _ apart

theorem apply_has (dir : Dir) (write : Write) (other : Nat) :
    (dir.apply write).has other ↔ other = write.base ∨ dir.has other := by
  cases write with
  | createStore base | appendStore base bytes => exact put_store_has dir base other _
  | createIndex base | setIndexLen base _ | fillIndex base | copyOffset base _ _ | copyPosition base _ _ =>
      exact put_index_has dir base other _

def Write.onIndex : Write → Bool
  | .createStore _ | .appendStore _ _ => false
  | _ => true

theorem index_writes_store (dir : Dir) (other : Nat) (writes : List Write)
    (index : ∀ write ∈ writes, write.onIndex = true) : (dir.applyAll writes).store other = dir.store other := by
  induction writes generalizing dir with
  | nil => rfl
  | cons write rest ih =>
      rw [apply_all_cons, ih _ fun later member => index later (List.mem_cons_of_mem _ member)]
      have here := index write List.mem_cons_self
      cases write with
      | createStore | appendStore => cases here
      | createIndex | setIndexLen | fillIndex | copyOffset | copyPosition => rfl

-- Writes to other segments' files leave a segment's own as they are.
section Frame

variable (other : Nat) (writes : List Write)

theorem apply_all_store_other (dir : Dir) (apart : ∀ write ∈ writes, other ≠ write.base) :
    (dir.applyAll writes).store other = dir.store other := by
  induction writes generalizing dir with
  | nil => rfl
  | cons write rest ih =>
      rw [apply_all_cons, ih _ fun later member => apart later (List.mem_cons_of_mem _ member)]
      exact apply_store_other dir write other (apart write List.mem_cons_self)

theorem apply_all_index_other (dir : Dir) (apart : ∀ write ∈ writes, other ≠ write.base) :
    (dir.applyAll writes).index other = dir.index other := by
  induction writes generalizing dir with
  | nil => rfl
  | cons write rest ih =>
      rw [apply_all_cons, ih _ fun later member => apart later (List.mem_cons_of_mem _ member)]
      exact apply_index_other dir write other (apart write List.mem_cons_self)

theorem apply_all_has (dir : Dir) :
    (dir.applyAll writes).has other ↔ dir.has other ∨ ∃ write ∈ writes, other = write.base := by
  induction writes generalizing dir with
  | nil => simp
  | cons write rest ih =>
      rw [apply_all_cons, ih, apply_has]
      simp only [List.mem_cons, exists_eq_or_imp]
      exact ⟨fun either => by tauto, fun either => by tauto⟩

end Frame

-- A run of appends to one store.
def storeWrites (base : Nat) (chunks : List Bytes) : List Write := chunks.map (.appendStore base)

theorem store_writes_base (base : Nat) (chunks : List Bytes) : ∀ write ∈ storeWrites base chunks, write.base = base := by
  intro write member
  obtain ⟨_, _, rfl⟩ := List.mem_map.mp member
  rfl

theorem store_writes_store (dir : Dir) (base : Nat) (chunks : List Bytes) :
    (dir.applyAll (storeWrites base chunks)).store base = dir.store base ++ chunks.flatten := by
  induction chunks generalizing dir with
  | nil => simp [storeWrites]
  | cons chunk rest ih =>
      rw [storeWrites, List.map_cons, apply_all_cons]
      refine (ih _).trans ?_
      simp [Dir.apply]

theorem store_writes_index (dir : Dir) (base other : Nat) (chunks : List Bytes) :
    (dir.applyAll (storeWrites base chunks)).index other = dir.index other := by
  induction chunks generalizing dir with
  | nil => rfl
  | cons chunk rest ih => exact ih (dir.putStore base (dir.store base ++ chunk))

-- The segments a directory listing names, each once and sorted.
def Dir.bases (dir : Dir) : List Nat := ((dir.stores.keys ++ dir.indexes.keys).dedup).insertionSort (· ≤ ·)

theorem mem_bases (dir : Dir) (base : Nat) : base ∈ dir.bases ↔ dir.has base := by
  rw [Dir.bases, List.mem_insertionSort, List.mem_dedup, List.mem_append, Dir.has, AList.mem_keys, AList.mem_keys]

theorem bases_eq (dir : Dir) (sorted : List Nat) (ascending : sorted.Pairwise (· < ·))
    (same : ∀ base, dir.has base ↔ base ∈ sorted) : dir.bases = sorted := by
  have noRepeat : dir.bases.Nodup :=
    (List.perm_insertionSort _ _).nodup_iff.mpr (List.nodup_dedup _)
  have perm : dir.bases.Perm sorted := by
    apply (List.perm_ext_iff_of_nodup noRepeat (ascending.imp Nat.ne_of_lt)).mpr
    intro base
    rw [mem_bases, same]
  exact perm.eq_of_pairwise' (List.pairwise_insertionSort _ _) (ascending.imp Nat.le_of_lt)

end RaftLog.SegmentLog
