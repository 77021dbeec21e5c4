import Finiex.Lib.Labels
import Mathlib.Algebra.Order.Round
import Mathlib.Data.Rat.Floor
import Mathlib.Tactic.Linarith
import Mathlib.Tactic.Positivity
import Mathlib.Tactic.FieldSimp

namespace Finiex.Lib.Rounding

/-- The nearest integer, ties going to the even neighbour. -/
def roundHalfEven (x : ℚ) : ℤ :=
  let lower := ⌊x⌋
  let rest := x - lower
  if rest < 1 / 2 then lower
  else if 1 / 2 < rest then lower + 1
  else if lower % 2 = 0 then lower else lower + 1

def roundTo (digits : ℕ) (x : ℚ) : ℚ := roundHalfEven (x * 10 ^ digits) / 10 ^ digits

/-- A number that is not negative, with so many decimals. -/
def fixedPoint (digits : ℕ) (x : ℚ) : String :=
  let scaled := (roundHalfEven (x * 10 ^ digits)).toNat
  (scaled / 10 ^ digits).repr ++ "." ++ Labels.padded digits (scaled % 10 ^ digits)

theorem roundHalfEven_intCast (n : ℤ) : roundHalfEven (n : ℚ) = n := by
  simp [roundHalfEven]

theorem roundTo_of_grid {digits : ℕ} {x : ℚ} {n : ℤ} (h : x * 10 ^ digits = n) :
    roundTo digits x = x := by
  have hpow : (10 : ℚ) ^ digits ≠ 0 := by positivity
  rw [roundTo, h, roundHalfEven_intCast, ← h]
  field_simp

theorem roundTo_roundTo (digits : ℕ) (x : ℚ) : roundTo digits (roundTo digits x) = roundTo digits x := by
  have hpow : (10 : ℚ) ^ digits ≠ 0 := by positivity
  exact roundTo_of_grid (div_mul_cancel₀ _ hpow)

theorem roundHalfEven_nonneg {x : ℚ} (h : 0 ≤ x) : 0 ≤ roundHalfEven x := by
  have hlower : 0 ≤ ⌊x⌋ := Int.floor_nonneg.mpr h
  unfold roundHalfEven
  simp only
  split_ifs <;> omega

theorem roundTo_nonneg (digits : ℕ) {x : ℚ} (h : 0 ≤ x) : 0 ≤ roundTo digits x := by
  have hscaled : 0 ≤ roundHalfEven (x * 10 ^ digits) := roundHalfEven_nonneg (by positivity)
  have hcast : (0 : ℚ) ≤ roundHalfEven (x * 10 ^ digits) := by exact_mod_cast hscaled
  rw [roundTo]
  positivity

theorem floor_le_roundHalfEven (x : ℚ) : ⌊x⌋ ≤ roundHalfEven x := by
  unfold roundHalfEven
  simp only
  split_ifs <;> omega

theorem roundHalfEven_le (x : ℚ) : roundHalfEven x ≤ ⌊x⌋ + 1 := by
  unfold roundHalfEven
  simp only
  split_ifs <;> omega

/-- Rounding keeps the order: ties of one interval all go to the same neighbour. -/
theorem roundHalfEven_mono {x y : ℚ} (h : x ≤ y) : roundHalfEven x ≤ roundHalfEven y := by
  have hfloor : ⌊x⌋ ≤ ⌊y⌋ := Int.floor_le_floor h
  rcases hfloor.lt_or_eq with hlt | heq
  · have hupper := roundHalfEven_le x
    have hlower := floor_le_roundHalfEven y
    omega
  · have hrest : x - ⌊x⌋ ≤ y - ⌊y⌋ := by
      rw [heq]
      linarith
    unfold roundHalfEven
    simp only
    split_ifs <;> first | omega | (exfalso; linarith)

theorem roundTo_mono (digits : ℕ) {x y : ℚ} (h : x ≤ y) : roundTo digits x ≤ roundTo digits y := by
  have hscaled : x * 10 ^ digits ≤ y * 10 ^ digits := by gcongr
  have hcast : (roundHalfEven (x * 10 ^ digits) : ℚ) ≤ roundHalfEven (y * 10 ^ digits) := by
    exact_mod_cast roundHalfEven_mono hscaled
  unfold roundTo
  gcongr

end Finiex.Lib.Rounding
