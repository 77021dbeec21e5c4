import Mathlib.Order.Monotone.Basic
import Mathlib.Data.List.Pairwise
import Mathlib.Data.List.Perm.Basic
import Mathlib.Order.Lattice

namespace Finiex.Lib.Windows

variable {ι τ : Type} [LinearOrder ι] [LinearOrder τ]
variable {instantOf : ι → τ} {selected : ι → Prop}

/-- `indices` are the selected indices with an instant in `(a, b]`, in ascending order. -/
structure Crossings (instantOf : ι → τ) (selected : ι → Prop) (a b : τ)
    (indices : List ι) : Prop where
  ascending : indices.Pairwise (· < ·)
  mem_iff : ∀ i, i ∈ indices ↔ selected i ∧ a < instantOf i ∧ instantOf i ≤ b

/-- Two ascending lists with the same members are equal. -/
theorem eq_of_ascending {xs ys : List ι} (hxs : xs.Pairwise (· < ·)) (hys : ys.Pairwise (· < ·))
    (h : ∀ i, i ∈ xs ↔ i ∈ ys) : xs = ys := by
  have hperm : xs.Perm ys :=
    (List.perm_ext_iff_of_nodup (hxs.imp ne_of_lt) (hys.imp ne_of_lt)).mpr h
  exact hperm.eq_of_pairwise (fun i j _ _ hij hji => absurd (hij.trans hji) (lt_irrefl i))
    hxs hys

theorem Crossings.unique {a b : τ} {xs ys : List ι} (hxs : Crossings instantOf selected a b xs)
    (hys : Crossings instantOf selected a b ys) : xs = ys :=
  eq_of_ascending hxs.ascending hys.ascending fun i => (hxs.mem_iff i).trans (hys.mem_iff i).symm

theorem crossings_empty {a b : τ} (h : b ≤ a) : Crossings instantOf selected a b [] := by
  refine ⟨List.Pairwise.nil, fun i => ?_⟩
  constructor
  · intro hmem
    cases hmem
  · rintro ⟨-, hlow, hhigh⟩
    exact absurd (hlow.trans_le (hhigh.trans h)) (lt_irrefl a)

/-- Splitting a window splits its crossings: none is lost and none is counted twice. -/
theorem Crossings.append {a b c : τ} (hmono : StrictMono instantOf) (hab : a ≤ b) (hbc : b ≤ c)
    {xs ys : List ι} (hxs : Crossings instantOf selected a b xs)
    (hys : Crossings instantOf selected b c ys) :
    Crossings instantOf selected a c (xs ++ ys) := by
  constructor
  · refine List.pairwise_append.mpr ⟨hxs.ascending, hys.ascending, fun i hi j hj => ?_⟩
    have hbefore : instantOf i ≤ b := ((hxs.mem_iff i).mp hi).2.2
    have hafter : b < instantOf j := ((hys.mem_iff j).mp hj).2.1
    exact hmono.lt_iff_lt.mp (hbefore.trans_lt hafter)
  · intro i
    rw [List.mem_append, hxs.mem_iff, hys.mem_iff]
    constructor
    · rintro (⟨hsel, hlow, hhigh⟩ | ⟨hsel, hlow, hhigh⟩)
      · exact ⟨hsel, hlow, hhigh.trans hbc⟩
      · exact ⟨hsel, hab.trans_lt hlow, hhigh⟩
    · rintro ⟨hsel, hlow, hhigh⟩
      rcases le_or_gt (instantOf i) b with hle | hgt
      · exact .inl ⟨hsel, hlow, hle⟩
      · exact .inr ⟨hsel, hgt, hhigh⟩

end Finiex.Lib.Windows
