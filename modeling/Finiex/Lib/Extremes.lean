import Mathlib.Algebra.Order.Group.Defs
import Mathlib.Order.Bounds.Basic

namespace Finiex.Lib.Extremes

section Records

variable {α : Type} [LinearOrder α] {S : Set α} {x m : α} {record : Prop} [Decidable record]

/-- A record stays the least value seen if it is replaced whenever a value is less, and only by
a value that is not greater. -/
theorem isLeast_insert_iff (h : IsLeast S m) :
    IsLeast (insert x S) (if record then x else m) ↔ (x < m → record) ∧ (record → x ≤ m) := by
  have hleast : ∀ a, IsLeast (insert x S) a ↔ a = min x m := by
    intro a
    constructor
    · intro ha
      exact ha.unique (h.insert x)
    · rintro rfl
      exact h.insert x
  rw [hleast]
  by_cases hrecord : record
  · simp [hrecord]
  · simp [hrecord]

theorem isGreatest_insert_iff (h : IsGreatest S m) :
    IsGreatest (insert x S) (if record then x else m) ↔ (m < x → record) ∧ (record → m ≤ x) :=
  isLeast_insert_iff (α := αᵒᵈ) h

end Records

section Falls

/-- The peak of the values observed so far, and the deepest fall below the peak of its time. -/
structure Drawdown (α : Type) where
  peak : α
  fall : α

variable {α : Type} [LinearOrder α] [Sub α]

def Drawdown.observe (d : Drawdown α) (value : α) : Drawdown α where
  peak := max d.peak value
  fall := max d.fall (max d.peak value - value)

end Falls

end Finiex.Lib.Extremes
