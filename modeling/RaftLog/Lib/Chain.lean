import Mathlib

set_option autoImplicit false

namespace RaftLog.Lib

-- Blocks of numbered items, each numbered on from where the block before it ends.
section Chain

variable {Block Item : Type} (base : Block → Nat) (items : Block → List Item)

def Chained : Nat → List Block → Prop
  | _, [] => True
  | start, block :: rest => base block = start ∧ Chained (start + (items block).length) rest

def contents (blocks : List Block) : List Item := blocks.flatMap items

theorem contents_append (before after : List Block) :
    contents items (before ++ after) = contents items before ++ contents items after := List.flatMap_append

theorem chained_append (start : Nat) (before after : List Block) :
    Chained base items start (before ++ after) ↔
      Chained base items start before ∧ Chained base items (start + (contents items before).length) after := by
  induction before generalizing start with
  | nil => simp [Chained, contents]
  | cons block rest ih =>
      rw [List.cons_append, Chained, Chained, ih, and_assoc, contents, contents, List.flatMap_cons, List.length_append,
        Nat.add_assoc]

theorem chained_last (start : Nat) (before : List Block) (last : Block) :
    Chained base items start (before ++ [last]) ↔
      Chained base items start before ∧ base last = start + (contents items before).length := by
  rw [chained_append, Chained, Chained, and_true]

-- Each block starts where the one before it ends.
theorem chained_adjacent (start : Nat) (blocks : List Block) (chained : Chained base items start blocks) :
    blocks.IsChain fun block next => base block + (items block).length = base next := by
  induction blocks generalizing start with
  | nil => exact .nil
  | cons block rest ih =>
      obtain ⟨here, later⟩ := chained
      refine (ih _ later).cons fun next following => ?_
      obtain ⟨more, rfl⟩ := List.head?_eq_some_iff.mp following
      rw [here]
      exact later.1.symm

section Map

variable {Other : Type} (otherBase : Other → Nat) (otherItems : Other → List Item) (change : Block → Other)
  (sameItems : ∀ block, otherItems (change block) = items block)

include sameItems

theorem contents_map (blocks : List Block) : contents otherItems (blocks.map change) = contents items blocks := by
  induction blocks with
  | nil => rfl
  | cons block rest ih =>
      rw [contents] at ih ⊢
      rw [List.map_cons, List.flatMap_cons, sameItems, ih]
      rfl

theorem chained_map (sameBase : ∀ block, otherBase (change block) = base block) (start : Nat) (blocks : List Block) :
    Chained otherBase otherItems start (blocks.map change) ↔ Chained base items start blocks := by
  induction blocks generalizing start with
  | nil => rfl
  | cons block rest ih => rw [List.map_cons, Chained, Chained, sameBase, sameItems, ih]

end Map

variable (start : Nat) (blocks : List Block) (chained : Chained base items start blocks)

include chained

theorem chained_within (block : Block) (member : block ∈ blocks) :
    start ≤ base block ∧ base block + (items block).length ≤ start + (contents items blocks).length := by
  obtain ⟨before, after, rfl⟩ := List.append_of_mem member
  have here := ((chained_append base items start before (block :: after)).mp chained).2.1
  rw [contents_append, List.length_append, contents, contents, List.flatMap_cons, List.length_append]
  rw [contents] at here
  omega

theorem chained_get (block : Block) (member : block ∈ blocks) (number : Nat) (below : number < (items block).length) :
    (contents items blocks)[base block + number - start]? = (items block)[number]? := by
  obtain ⟨before, after, rfl⟩ := List.append_of_mem member
  have here := ((chained_append base items start before (block :: after)).mp chained).2.1
  have position : base block + number - start = (contents items before).length + number := by omega
  rw [position, contents_append, List.getElem?_append_right (Nat.le_add_right _ _), Nat.add_sub_cancel_left, contents,
    List.flatMap_cons]
  exact List.getElem?_append_left below

theorem chained_cover (number : Nat) (least : start ≤ number) (most : number < start + (contents items blocks).length) :
    ∃ block ∈ blocks, base block ≤ number ∧ number < base block + (items block).length := by
  induction blocks generalizing start with
  | nil => exact absurd most (Nat.not_lt.mpr least)
  | cons block rest ih =>
      obtain ⟨here, later⟩ := chained
      by_cases inside : number < start + (items block).length
      · exact ⟨block, List.mem_cons_self, here ▸ least, here ▸ inside⟩
      · rw [contents, List.flatMap_cons, List.length_append, ← Nat.add_assoc] at most
        obtain ⟨found, member, range⟩ := ih _ later (Nat.le_of_not_lt inside) most
        exact ⟨found, List.mem_cons_of_mem _ member, range⟩

theorem chained_unique (first second : Block) (here : first ∈ blocks) (there : second ∈ blocks) (number : Nat)
    (inFirst : base first ≤ number ∧ number < base first + (items first).length)
    (inSecond : base second ≤ number ∧ number < base second + (items second).length) : first = second := by
  induction blocks generalizing start with
  | nil => cases here
  | cons block rest ih =>
      obtain ⟨start_eq, later⟩ := chained
      have behind : ∀ other ∈ rest, start + (items block).length ≤ base other :=
        fun other member => (chained_within base items _ rest later other member).1
      rcases List.mem_cons.mp here with rfl | inside
      · rcases List.mem_cons.mp there with rfl | beyond
        · rfl
        · have least := behind second beyond
          omega
      · rcases List.mem_cons.mp there with rfl | beyond
        · have least := behind first inside
          omega
        · exact ih _ later inside beyond

omit chained

-- Where only the last block may be empty the starts ascend.
theorem chained_ascending (last : Block) (filled : ∀ block ∈ blocks, items block ≠ [])
    (chained : Chained base items start (blocks ++ [last])) : ((blocks ++ [last]).map base).Pairwise (· < ·) := by
  induction blocks generalizing start with
  | nil => exact List.pairwise_singleton _ _
  | cons block rest ih =>
      obtain ⟨here, later⟩ := chained
      have some := List.length_pos_iff.mpr (filled block List.mem_cons_self)
      rw [List.cons_append, List.map_cons, List.pairwise_cons]
      refine ⟨?_, ih _ (fun other member => filled other (List.mem_cons_of_mem _ member)) later⟩
      intro number member
      obtain ⟨other, found, rfl⟩ := List.mem_map.mp member
      have least := (chained_within base items _ _ later other found).1
      omega

end Chain

end RaftLog.Lib
