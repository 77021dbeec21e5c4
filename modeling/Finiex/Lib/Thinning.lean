import Mathlib.Order.Lattice
import Mathlib.Data.List.Basic

/-!
# Greedy thinning

One pass over elements in the order of their times keeps an element once the clock that the last
kept one has set is over. What is kept is spaced, and no spaced selection keeps more.
-/

namespace Finiex.Lib.Thinning

variable {α β : Type} [LinearOrder α] {time next next' : β → α}

/-- Each element with whether it is kept. A kept element sets the clock to its `next`. -/
def mark (time next : β → α) : α → List β → List (β × Bool)
  | _, [] => []
  | clock, x :: xs =>
      if clock ≤ time x then (x, true) :: mark time next (next x) xs
      else (x, false) :: mark time next clock xs

def kept (marked : List (β × Bool)) : List β := (marked.filter Prod.snd).map Prod.fst

@[simp]
theorem kept_cons_true (x : β) (marked : List (β × Bool)) :
    kept ((x, true) :: marked) = x :: kept marked := by
  simp [kept]

@[simp]
theorem kept_cons_false (x : β) (marked : List (β × Bool)) :
    kept ((x, false) :: marked) = kept marked := by
  simp [kept]

/-- An element comes when those before it allow for it. -/
def Spaced (time next : β → α) (xs : List β) : Prop := xs.Pairwise fun x y => next x ≤ time y

theorem map_fst_mark (clock : α) (xs : List β) : (mark time next clock xs).map Prod.fst = xs := by
  induction xs generalizing clock with
  | nil => rfl
  | cons x xs ih =>
      by_cases h : clock ≤ time x
      · simp [mark, h, ih]
      · simp [mark, h, ih]

theorem kept_mark_sublist (clock : α) (xs : List β) :
    (kept (mark time next clock xs)).Sublist xs := by
  induction xs generalizing clock with
  | nil => exact List.Sublist.refl _
  | cons x xs ih =>
      by_cases h : clock ≤ time x
      · simpa [mark, h] using ih (next x)
      · simpa [mark, h] using (ih clock).cons x

theorem le_of_mem_kept {clock : α} {xs : List β} (hsorted : xs.Pairwise fun x y => time x ≤ time y)
    {y : β} (hy : y ∈ kept (mark time next clock xs)) : clock ≤ time y := by
  induction xs generalizing clock with
  | nil => simp [mark, kept] at hy
  | cons x xs ih =>
      obtain ⟨hx, hxs⟩ := List.pairwise_cons.mp hsorted
      by_cases h : clock ≤ time x
      · simp only [mark, h, if_true, kept_cons_true, List.mem_cons] at hy
        rcases hy with rfl | hy
        · exact h
        · apply h.trans
          apply hx
          exact (kept_mark_sublist _ xs).subset hy
      · simp only [mark, h, if_false, kept_cons_false] at hy
        exact ih hxs hy

theorem spaced_kept {clock : α} {xs : List β} (hsorted : xs.Pairwise fun x y => time x ≤ time y) :
    Spaced time next (kept (mark time next clock xs)) := by
  induction xs generalizing clock with
  | nil => simp [mark, kept, Spaced]
  | cons x xs ih =>
      obtain ⟨-, hxs⟩ := List.pairwise_cons.mp hsorted
      by_cases h : clock ≤ time x
      · simp only [mark, h, if_true, kept_cons_true]
        exact List.pairwise_cons.mpr ⟨fun y hy => le_of_mem_kept hxs hy, ih hxs⟩
      · simp only [mark, h, if_false, kept_cons_false]
        exact ih hxs

/-- A dropped element comes before the clock of the last kept one, or before the first clock. -/
theorem lt_of_dropped {clock : α} {xs : List β} {front back : List (β × Bool)} {x : β}
    (h : mark time next clock xs = front ++ (x, false) :: back) :
    time x < ((kept front).getLast?.map next).getD clock := by
  induction xs generalizing clock front with
  | nil => simp [mark] at h
  | cons y xs ih =>
      by_cases hy : clock ≤ time y
      · simp only [mark, hy, if_true] at h
        cases front with
        | nil => simp at h
        | cons first front =>
            obtain ⟨rfl, hrest⟩ := List.cons.inj h
            have hlater := ih hrest
            rw [kept_cons_true, List.getLast?_cons]
            simpa [Option.getD_map] using hlater
      · simp only [mark, hy, if_false] at h
        cases front with
        | nil =>
            obtain ⟨hhead, -⟩ := List.cons.inj h
            have hxy : y = x := congrArg Prod.fst hhead
            subst hxy
            simpa [kept] using hy
        | cons first front =>
            obtain ⟨rfl, hrest⟩ := List.cons.inj h
            rw [kept_cons_false]
            exact ih hrest

/-- No spaced selection behind the clock keeps more than the pass does: where it leaves out an
element that the pass keeps, the pass may keep an earlier one instead. -/
theorem length_le_kept (hmono : ∀ x y, time x ≤ time y → next x ≤ next y) {clock : α}
    {xs selected : List β} (hsorted : xs.Pairwise fun x y => time x ≤ time y)
    (hsub : selected.Sublist xs) (hspaced : Spaced time next selected)
    (hclock : ∀ y ∈ selected, clock ≤ time y) :
    selected.length ≤ (kept (mark time next clock xs)).length := by
  induction xs generalizing clock selected with
  | nil => simp [List.sublist_nil.mp hsub]
  | cons x xs ih =>
      obtain ⟨hx, hxs⟩ := List.pairwise_cons.mp hsorted
      by_cases h : clock ≤ time x
      · simp only [mark, h, if_true, kept_cons_true, List.length_cons]
        cases selected with
        | nil => simp
        | cons y selected =>
            obtain ⟨hy, hrest⟩ := List.pairwise_cons.mp hspaced
            -- The selection may begin later than the pass, but not earlier.
            have hle : time x ≤ time y := by
              rcases List.mem_cons.mp (hsub.subset List.mem_cons_self) with rfl | hmem
              · exact le_rfl
              · exact hx y hmem
            have hbehind : ∀ z ∈ selected, next x ≤ time z := by
              intro z hz
              exact (hmono x y hle).trans (hy z hz)
            simpa using ih hxs hsub.of_cons_cons hrest hbehind
      · simp only [mark, h, if_false, kept_cons_false]
        apply ih hxs _ hspaced hclock
        cases hsub with
        | cons _ hsub => exact hsub
        | cons_cons _ _ => exact absurd (hclock x List.mem_cons_self) h

/-- Later clocks keep fewer elements. -/
theorem length_kept_anti (hmono : ∀ x y, time x ≤ time y → next x ≤ next y)
    (hnext : ∀ x, next x ≤ next' x) {clock : α} {xs : List β}
    (hsorted : xs.Pairwise fun x y => time x ≤ time y) :
    (kept (mark time next' clock xs)).length ≤ (kept (mark time next clock xs)).length := by
  apply length_le_kept hmono hsorted (kept_mark_sublist clock xs)
  · exact (spaced_kept hsorted).imp fun {x y} hle => (hnext x).trans hle
  · intro y hy
    exact le_of_mem_kept hsorted hy

end Finiex.Lib.Thinning
