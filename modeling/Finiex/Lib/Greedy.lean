import Mathlib.Data.List.Induction

namespace Finiex.Lib.Greedy

variable {α : Type} (excluded : α → α → Bool)

def take (kept : List α) (x : α) : List α :=
  if kept.any (excluded x) then kept else kept ++ [x]

/-- The selection among elements that come in the order of their ranks. -/
def select (xs : List α) : List α := xs.foldl (take excluded) []

@[simp]
theorem select_nil : select excluded [] = [] := rfl

theorem select_concat (xs : List α) (x : α) :
    select excluded (xs ++ [x]) = take excluded (select excluded xs) x := by
  simp [select, List.foldl_append]

variable {excluded}

theorem prefix_take (kept : List α) (x : α) : kept <+: take excluded kept x := by
  unfold take
  split
  · exact List.prefix_rfl
  · exact List.prefix_append kept [x]

theorem select_sublist (xs : List α) : (select excluded xs).Sublist xs := by
  induction xs using List.reverseRecOn with
  | nil => exact List.Sublist.slnil
  | append_singleton xs x ih =>
      rw [select_concat, take]
      split
      · exact ih.trans (List.sublist_append_left xs [x])
      · exact ih.append (List.Sublist.refl [x])

theorem pairwise_select (xs : List α) :
    (select excluded xs).Pairwise fun x later => excluded later x = false := by
  induction xs using List.reverseRecOn with
  | nil => exact List.Pairwise.nil
  | append_singleton xs x ih =>
      rw [select_concat, take]
      split
      · exact ih
      · next hfree =>
          refine List.pairwise_append.mpr ⟨ih, List.pairwise_singleton _ x, ?_⟩
          intro y hy z hz
          obtain rfl := List.mem_singleton.mp hz
          apply Bool.eq_false_iff.mpr
          intro hexcluded
          exact hfree (List.any_eq_true.mpr ⟨y, hy, hexcluded⟩)

/-- An element is only left out for one that is taken and whose rank is not behind its own. -/
theorem exists_of_not_mem_select {r : α → α → Prop} {xs : List α} (h : xs.Pairwise r) {x : α}
    (hx : x ∈ xs) (hleft : x ∉ select excluded xs) :
    ∃ y ∈ select excluded xs, r y x ∧ excluded x y = true := by
  induction xs using List.reverseRecOn with
  | nil => cases hx
  | append_singleton xs z ih =>
      obtain ⟨hxs, -, hlast⟩ := List.pairwise_append.mp h
      rw [select_concat] at hleft ⊢
      have hkept : select excluded xs ⊆ take excluded (select excluded xs) z :=
        (prefix_take _ z).subset
      rcases List.mem_append.mp hx with hx | hx
      · obtain ⟨y, hy, hyx⟩ := ih hxs hx fun hmem => hleft (hkept hmem)
        exact ⟨y, hkept hy, hyx⟩
      · obtain rfl := List.mem_singleton.mp hx
        unfold take at hleft
        split at hleft
        · next hany =>
            obtain ⟨y, hy, hxy⟩ := List.any_eq_true.mp hany
            exact ⟨y, hkept hy, hlast y ((select_sublist xs).subset hy) x List.mem_cons_self, hxy⟩
        · exact absurd (List.mem_append_right _ List.mem_cons_self) hleft

end Finiex.Lib.Greedy
