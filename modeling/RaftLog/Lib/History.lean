import Mathlib.Data.List.Nodup

set_option autoImplicit false

namespace RaftLog.Lib

-- What is seen of the calls of an object: that they were made, and what they were answered.
inductive Moment (ι ρ : Type) where
  | called (call : ι)
  | answered (call : ι) (answer : ρ)
deriving DecidableEq, Repr

section Order

variable {ι ρ : Type}

def Told (history : List (Moment ι ρ)) (call : ι) : Prop := ∃ answer, Moment.answered call answer ∈ history

-- One call was answered before another was made. Histories and orders are newest first.
def Precedes (history : List (Moment ι ρ)) (first later : ι) : Prop :=
  ∃ newer older, history = newer ++ .called later :: older ∧ Told older first

-- The calls that took effect, in an order that agrees with everything their callers saw.
structure Linear (good : ρ → Prop) (history : List (Moment ι ρ)) (order : List ι) : Prop where
  once : order.Nodup
  made : ∀ call ∈ order, Moment.called call ∈ history
  told : ∀ call answer, Moment.answered call answer ∈ history → (good answer ↔ call ∈ order)
  ordered : ∀ first later, Precedes history first later → first ∈ order → later ∈ order → [later, first].Sublist order

theorem told_cons (history : List (Moment ι ρ)) (moment : Moment ι ρ) (call : ι) (told : Told history call) :
    Told (moment :: history) call := told.imp fun _ listed => List.mem_cons_of_mem moment listed

theorem told_called (history : List (Moment ι ρ)) (made call : ι) : Told (.called made :: history) call ↔ Told history call := by
  simp [Told]

theorem told_answered (history : List (Moment ι ρ)) (made call : ι) (answer : ρ) :
    Told (.answered made answer :: history) call ↔ call = made ∨ Told history call := by
  simp only [Told, List.mem_cons, Moment.answered.injEq]
  constructor
  · rintro ⟨other, ⟨same, _⟩ | before⟩
    · exact .inl same
    · exact .inr ⟨other, before⟩
  · rintro (same | ⟨other, before⟩)
    · exact ⟨answer, .inl ⟨same, rfl⟩⟩
    · exact ⟨other, .inr before⟩

theorem precedes_told (history : List (Moment ι ρ)) (first later : ι) (before : Precedes history first later) :
    Told history first := by
  obtain ⟨newer, older, rfl, answer, listed⟩ := before
  exact ⟨answer, List.mem_append_right newer (List.mem_cons_of_mem _ listed)⟩

theorem precedes_called (history : List (Moment ι ρ)) (made first later : ι)
    (before : Precedes (.called made :: history) first later) : later = made ∨ Precedes history first later := by
  obtain ⟨newer, older, same, told⟩ := before
  cases newer with
  | nil =>
      cases same
      exact .inl rfl
  | cons moment rest =>
      obtain ⟨-, rest_same⟩ := List.cons_eq_cons.mp same
      exact .inr ⟨rest, older, rest_same, told⟩

theorem precedes_answered (history : List (Moment ι ρ)) (call first later : ι) (answer : ρ)
    (before : Precedes (.answered call answer :: history) first later) : Precedes history first later := by
  obtain ⟨newer, older, same, told⟩ := before
  cases newer with
  | nil => cases same
  | cons moment rest =>
      obtain ⟨-, rest_same⟩ := List.cons_eq_cons.mp same
      exact ⟨rest, older, rest_same, told⟩

variable (good : ρ → Prop)

theorem linear_nil : Linear good ([] : List (Moment ι ρ)) [] where
  once := .nil
  made := fun _ member => absurd member List.not_mem_nil
  told := fun _ _ listed => absurd listed List.not_mem_nil
  ordered := fun _ _ _ member => absurd member List.not_mem_nil

variable (history : List (Moment ι ρ)) (order : List ι) (linear : Linear good history order)

include linear

theorem linear_call (call : ι) (fresh : Moment.called call ∉ history) : Linear good (.called call :: history) order where
  once := linear.once
  made := fun other member => List.mem_cons_of_mem _ (linear.made other member)
  told := by
    intro other answer listed
    rcases List.mem_cons.mp listed with same | before
    · cases same
    · exact linear.told other answer before
  ordered := by
    intro first later before inside member
    rcases precedes_called history call first later before with rfl | earlier
    · exact absurd (linear.made later member) fresh
    · exact linear.ordered first later earlier inside member

theorem linear_answer (call : ι) (answer : ρ) (right : good answer ↔ call ∈ order) :
    Linear good (.answered call answer :: history) order where
  once := linear.once
  made := fun other member => List.mem_cons_of_mem _ (linear.made other member)
  told := by
    intro other given listed
    rcases List.mem_cons.mp listed with same | before
    · cases same
      exact right
    · exact linear.told other given before
  ordered := fun first later before => linear.ordered first later (precedes_answered history call first later answer before)

-- A call takes effect between the two moments its caller sees.
theorem linear_effect (call : ι) (made : Moment.called call ∈ history) (waiting : ¬ Told history call) (new : call ∉ order) :
    Linear good history (call :: order) where
  once := List.nodup_cons.mpr ⟨new, linear.once⟩
  made := by
    intro other member
    rcases List.mem_cons.mp member with rfl | before
    · exact made
    · exact linear.made other before
  told := by
    intro other answer listed
    have apart : other ≠ call := by
      rintro rfl
      exact waiting ⟨answer, listed⟩
    rw [linear.told other answer listed, List.mem_cons, or_iff_right apart]
  ordered := by
    intro first later before inside member
    have other : first ∈ order := by
      rcases List.mem_cons.mp inside with rfl | inside
      · exact absurd (precedes_told history first later before) waiting
      · exact inside
    rcases List.mem_cons.mp member with rfl | member
    · exact (List.singleton_sublist.mpr other).cons_cons later
    · exact (linear.ordered first later before other member).cons call

end Order

end RaftLog.Lib
