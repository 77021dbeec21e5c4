import Mathlib.Data.List.Destutter

namespace Finiex.Lib.Repeats

variable {α β : Type} [DecidableEq β] {f : α → β} {xs : List α}

/-- The elements that differ in their key from the one taken before. -/
def withoutRepeats (f : α → β) (xs : List α) : List α := xs.destutter fun a b => f a ≠ f b

@[simp]
theorem withoutRepeats_nil : withoutRepeats f [] = [] := rfl

theorem destutter'_concat (R : α → α → Prop) [DecidableRel R] (a x : α) (xs : List α) :
    (xs ++ [x]).destutter' R a = xs.destutter' R a ++
      if R ((xs.destutter' R a).getLastD a) x then [x] else [] := by
  induction xs generalizing a with
  | nil =>
      rw [List.nil_append, List.destutter'_singleton]
      by_cases hrel : R a x
      · simp [hrel]
      · simp [hrel]
  | cons b xs ih =>
      rw [List.cons_append]
      by_cases hrel : R a b
      · have hlast : (List.destutter' R b xs).getLastD a = (List.destutter' R b xs).getLastD b := by
          cases hkept : List.destutter' R b xs with
          | nil => exact absurd hkept (List.destutter'_ne_nil _ _)
          | cons c kept => rfl
        rw [List.destutter'_cons_pos _ hrel, List.destutter'_cons_pos _ hrel, ih,
          List.getLastD_cons, hlast]
        rfl
      · rw [List.destutter'_cons_neg _ hrel, List.destutter'_cons_neg _ hrel, ih]

/-- The reader takes one more element if its key is not the one remembered. -/
theorem withoutRepeats_concat (xs : List α) (x : α) :
    withoutRepeats f (xs ++ [x]) =
      if (withoutRepeats f xs).getLast?.map f = some (f x) then withoutRepeats f xs
      else withoutRepeats f xs ++ [x] := by
  cases xs with
  | nil => simp [withoutRepeats]
  | cons a xs =>
      unfold withoutRepeats
      rw [List.cons_append, List.destutter_cons', List.destutter_cons', destutter'_concat]
      cases hkept : xs.destutter' (fun a b => f a ≠ f b) a with
      | nil => exact absurd hkept (List.destutter'_ne_nil _ _)
      | cons b kept =>
          rw [List.getLastD_cons, List.getLast?_cons, Option.map_some, ← List.getLastD_eq_getLast?]
          by_cases hsame : f (kept.getLastD b) = f x
          · rw [if_neg (not_not.mpr hsame), if_pos (congrArg some hsame), List.append_nil]
          · rw [if_pos hsame, if_neg fun heq => hsame (Option.some.inj heq)]

theorem withoutRepeats_sublist (xs : List α) : (withoutRepeats f xs).Sublist xs :=
  List.destutter_sublist _ xs

theorem mem_map_withoutRepeats {key : β} :
    key ∈ (withoutRepeats f xs).map f ↔ key ∈ xs.map f := by
  refine ⟨fun hmem => ((withoutRepeats_sublist xs).map f).subset hmem, fun hmem => ?_⟩
  induction xs using List.reverseRecOn with
  | nil => cases hmem
  | append_singleton xs x ih =>
      rw [withoutRepeats_concat]
      rw [List.map_append, List.mem_append] at hmem
      by_cases hlast : (withoutRepeats f xs).getLast?.map f = some (f x)
      · rw [if_pos hlast]
        rcases hmem with hmem | hmem
        · exact ih hmem
        · obtain ⟨last, hkept, hkey⟩ := Option.map_eq_some_iff.mp hlast
          rw [List.mem_singleton.mp hmem, ← hkey]
          exact List.mem_map_of_mem (List.mem_of_getLast? hkept)
      · rw [if_neg hlast, List.map_append, List.mem_append]
        exact hmem.imp ih id

/-- Elements that come in order, repeats apart, are taken in order. -/
theorem pairwise_withoutRepeats {R : α → α → Prop} [IsTrans α R]
    (h : xs.Pairwise fun a b => f a = f b ∨ R a b) : (withoutRepeats f xs).Pairwise R := by
  apply List.isChain_iff_pairwise.mp
  have hordered := (h.sublist (withoutRepeats_sublist (f := f) xs)).isChain
  have hdiffer := List.isChain_destutter (fun a b => f a ≠ f b) xs
  rw [List.isChain_iff_getElem] at hordered hdiffer ⊢
  intro i hi
  rcases hordered i hi with hsame | hrel
  · exact absurd hsame (hdiffer i hi)
  · exact hrel

/-- Of elements with one key only the first is taken. -/
theorem withoutRepeats_of_constant {key : β} (h : ∀ x ∈ xs, f x = key) :
    withoutRepeats f xs = xs.take 1 := by
  induction xs using List.reverseRecOn with
  | nil => rfl
  | append_singleton xs x ih =>
      obtain ⟨hinit, hlast⟩ := List.forall_mem_append.mp h
      rw [withoutRepeats_concat, ih hinit]
      cases xs with
      | nil => rfl
      | cons first xs =>
          have hkey : f first = f x :=
            (hinit first List.mem_cons_self).trans (hlast x (List.mem_singleton_self x)).symm
          simp [hkey]

end Finiex.Lib.Repeats
