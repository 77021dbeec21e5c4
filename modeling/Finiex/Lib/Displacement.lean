import Mathlib.Data.List.Induction
import Mathlib.Data.List.Nodup

/-!
# What is left of a log

Each entry of a log displaces some of the entries before it. A store that is brought up to date
entry by entry holds what no later entry displaces.
-/

namespace Finiex.Lib.Displacement

variable {α : Type} (displaces : α → α → Bool)

def put (kept : List α) (x : α) : List α := (kept.filter fun y => !displaces x y) ++ [x]

/-- The entries of a log that no later entry displaces. -/
def survivors : List α → List α
  | [] => []
  | x :: xs => if xs.any (displaces · x) then survivors xs else x :: survivors xs

theorem survivors_append (xs ys : List α) :
    survivors displaces (xs ++ ys) =
      ((survivors displaces xs).filter fun x => !ys.any (displaces · x)) ++
        survivors displaces ys := by
  induction xs with
  | nil => rfl
  | cons x xs ih =>
      simp only [List.cons_append, survivors, List.any_append, ih]
      cases xs.any (displaces · x) <;> cases hys : ys.any (displaces · x) <;> simp [hys]

theorem survivors_concat (xs : List α) (x : α) :
    survivors displaces (xs ++ [x]) = put displaces (survivors displaces xs) x := by
  simp [survivors_append, survivors, put]

/-- A store and a log: the entries of the store come first. -/
theorem foldl_put (xs log : List α) :
    log.foldl (put displaces) (survivors displaces xs) = survivors displaces (xs ++ log) := by
  induction log using List.reverseRecOn with
  | nil => simp
  | append_singleton log x ih =>
      rw [List.foldl_append, ih, ← List.append_assoc, survivors_concat]
      rfl

variable {displaces}

theorem mem_survivors_iff {xs : List α} {x : α} :
    x ∈ survivors displaces xs ↔
      ∃ before later, xs = before ++ x :: later ∧ ∀ y ∈ later, displaces y x = false := by
  induction xs with
  | nil => simp [survivors]
  | cons a xs ih =>
      constructor
      · intro hx
        have hcases : x ∈ survivors displaces xs ∨ (x = a ∧ xs.any (displaces · a) = false) := by
          rw [survivors] at hx
          split at hx
          · exact .inl hx
          · next hany =>
              rcases List.mem_cons.mp hx with rfl | hx
              · exact .inr ⟨rfl, Bool.eq_false_iff.mpr hany⟩
              · exact .inl hx
        rcases hcases with hx | ⟨rfl, hany⟩
        · obtain ⟨before, later, rfl, hlater⟩ := ih.mp hx
          exact ⟨a :: before, later, rfl, hlater⟩
        · exact ⟨[], xs, rfl, by simpa using hany⟩
      · rintro ⟨before, later, hsplit, hlater⟩
        cases before with
        | nil =>
            obtain ⟨rfl, rfl⟩ := List.cons.inj hsplit
            have hany : xs.any (displaces · a) = false := by simpa using hlater
            simp [survivors, hany]
        | cons b before =>
            obtain ⟨rfl, rfl⟩ := List.cons.inj hsplit
            have hx := ih.mpr ⟨before, later, rfl, hlater⟩
            rw [survivors]
            split
            · exact hx
            · exact List.mem_cons_of_mem a hx

theorem survivors_sublist (xs : List α) : (survivors displaces xs).Sublist xs := by
  induction xs with
  | nil => exact List.Sublist.slnil
  | cons x xs ih =>
      rw [survivors]
      split
      · exact ih.cons x
      · exact ih.cons_cons x

/-- Nothing is lost exactly when no entry displaces an earlier one. -/
theorem survivors_eq_self_iff {xs : List α} :
    survivors displaces xs = xs ↔ xs.Pairwise fun x later => displaces later x = false := by
  induction xs with
  | nil => simp [survivors]
  | cons x xs ih =>
      rw [List.pairwise_cons, survivors]
      split
      · next hany =>
          obtain ⟨y, hy, hdisplaces⟩ := List.any_eq_true.mp hany
          constructor
          · intro heq
            have hlength : (survivors displaces xs).length ≤ xs.length :=
              (survivors_sublist xs).length_le
            rw [heq] at hlength
            exact absurd hlength (by simp)
          · rintro ⟨hnone, -⟩
            rw [hnone y hy] at hdisplaces
            cases hdisplaces
      · next hany =>
          have hnone : ∀ y ∈ xs, displaces y x = false := by simpa using hany
          constructor
          · intro heq
            exact ⟨hnone, ih.mp (List.cons.inj heq).2⟩
          · rintro ⟨-, hpairwise⟩
            rw [ih.mpr hpairwise]

theorem pairwise_survivors (xs : List α) :
    (survivors displaces xs).Pairwise fun x later => displaces later x = false := by
  induction xs with
  | nil => exact List.Pairwise.nil
  | cons x xs ih =>
      rw [survivors]
      split
      · exact ih
      · next hany =>
          refine List.pairwise_cons.mpr ⟨?_, ih⟩
          intro y hy
          have hnone : ∀ z ∈ xs, displaces z x = false := by simpa using hany
          exact hnone y ((survivors_sublist xs).subset hy)

end Finiex.Lib.Displacement
