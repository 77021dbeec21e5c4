import Finiex.Lib.Run
import Mathlib.Data.List.Forall2
import Mathlib.Data.List.ReduceOption

namespace Finiex.Lib.Pointwise

variable {α β γ : Type} {R : α → β → Prop} {xs : List α} {ys : List β}

theorem trans {S : β → γ → Prop} {T : α → γ → Prop} {zs : List γ}
    (hcomp : ∀ x y z, R x y → S y z → T x z) (h : List.Forall₂ R xs ys)
    (h' : List.Forall₂ S ys zs) : List.Forall₂ T xs zs := by
  induction h generalizing zs with
  | nil =>
      cases h'
      exact .nil
  | cons hhead _ ih =>
      cases h' with
      | cons hhead' htail' => exact .cons (hcomp _ _ _ hhead hhead') (ih htail')

theorem exists_left (h : List.Forall₂ R xs ys) {y : β} (hy : y ∈ ys) : ∃ x ∈ xs, R x y := by
  induction h with
  | nil => cases hy
  | cons hhead _ ih =>
      rcases List.mem_cons.mp hy with rfl | hlater
      · exact ⟨_, List.mem_cons_self, hhead⟩
      · obtain ⟨x, hx, hR⟩ := ih hlater
        exact ⟨x, List.mem_cons_of_mem _ hx, hR⟩

theorem exists_right (h : List.Forall₂ R xs ys) {x : α} (hx : x ∈ xs) : ∃ y ∈ ys, R x y :=
  exists_left (R := fun y x => R x y) h.flip hx

theorem and {S : α → β → Prop} (h : List.Forall₂ R xs ys) (h' : List.Forall₂ S xs ys) :
    List.Forall₂ (fun x y => R x y ∧ S x y) xs ys := by
  induction h with
  | nil => exact .nil
  | cons hhead _ ih =>
      cases h' with
      | cons hhead' htail' => exact .cons ⟨hhead, hhead'⟩ (ih htail')

theorem map_eq_map {f : α → γ} {g : β → γ} (hmap : ∀ x y, R x y → f x = g y)
    (h : List.Forall₂ R xs ys) : xs.map f = ys.map g := by
  induction h with
  | nil => rfl
  | cons hhead _ ih => rw [List.map_cons, List.map_cons, hmap _ _ hhead, ih]

theorem of_getElem? (h : List.Forall₂ R xs ys) {place : ℕ} {x : α} (hx : xs[place]? = some x) :
    ∃ y, ys[place]? = some y ∧ R x y := by
  induction h generalizing place with
  | nil => cases hx
  | cons hhead _ ih =>
      cases place with
      | zero => exact ⟨_, rfl, Option.some.inj hx ▸ hhead⟩
      | succ place => exact ih hx

/-- A loop of fallible computations succeeds when each of them does. -/
theorem mapM_eq_ok_iff {ε : Type} {f : α → Except ε β} :
    xs.mapM f = .ok ys ↔ List.Forall₂ (fun x y => f x = .ok y) xs ys := by
  induction xs generalizing ys with
  | nil => rw [List.mapM_nil, List.forall₂_nil_left_iff, Run.pure_eq_ok, eq_comm]
  | cons x xs ih =>
      rw [List.mapM_cons, Run.bind_eq_ok]
      constructor
      · rintro ⟨y, hy, hrest⟩
        obtain ⟨ys, hys, hcons⟩ := Run.bind_eq_ok.mp hrest
        cases hcons
        exact .cons hy (ih.mp hys)
      · intro h
        cases h with
        | cons hy hys => exact ⟨_, hy, Run.bind_eq_ok.mpr ⟨_, ih.mpr hys, rfl⟩⟩

/-- Related elements at one place are mapped to related values. -/
theorem mapIdx {δ : Type} {f : ℕ → α → γ} {g : ℕ → β → δ} {S : γ → δ → Prop}
    (hmap : ∀ place x y, xs[place]? = some x → R x y → S (f place x) (g place y))
    (h : List.Forall₂ R xs ys) : List.Forall₂ S (xs.mapIdx f) (ys.mapIdx g) := by
  induction h generalizing f g with
  | nil => exact .nil
  | cons hhead _ ih =>
      rw [List.mapIdx_cons, List.mapIdx_cons]
      refine .cons (hmap 0 _ _ rfl hhead) (ih ?_)
      intro place x y hplace hR
      exact hmap (place + 1) x y hplace hR

theorem reduceOption {xs : List (Option α)} {ys : List (Option β)}
    (h : List.Forall₂ (Option.Rel R) xs ys) : List.Forall₂ R xs.reduceOption ys.reduceOption := by
  induction h with
  | nil => exact .nil
  | cons hhead _ ih =>
      cases hhead with
      | some hvalue =>
          rw [List.reduceOption_cons_of_some, List.reduceOption_cons_of_some]
          exact .cons hvalue ih
      | none =>
          rw [List.reduceOption_cons_of_none, List.reduceOption_cons_of_none]
          exact ih

theorem of_map_eq {f : α → γ} {g : β → γ} (h : xs.map f = ys.map g) :
    List.Forall₂ (fun x y => f x = g y) xs ys := by
  rw [← List.forall₂_eq_eq_eq, List.forall₂_map_left_iff, List.forall₂_map_right_iff] at h
  exact h

section Combine

variable {f : α → β → γ}

/-- Related lists, each combined with one of two further related lists. -/
theorem zipWith {δ ε : Type} {P : α → γ → Prop} {Q : β → δ → Prop} {S : γ → δ → Prop}
    {T : ε → ε → Prop} {f : α → γ → ε} {g : β → δ → ε} {zs : List γ} {ws : List δ}
    (hcombine : ∀ x y z w, R x y → P x z → Q y w → S z w → T (f x z) (g y w))
    (h : List.Forall₂ R xs ys) (hleft : List.Forall₂ P xs zs) (hright : List.Forall₂ Q ys ws)
    (h' : List.Forall₂ S zs ws) :
    List.Forall₂ T (List.zipWith f xs zs) (List.zipWith g ys ws) := by
  induction h generalizing zs ws with
  | nil =>
      cases hleft
      exact .nil
  | cons hhead _ ih =>
      cases hleft with
      | cons hleftHead hleftTail =>
          cases hright with
          | cons hrightHead hrightTail =>
              cases h' with
              | cons hhead' htail' =>
                  exact .cons (hcombine _ _ _ _ hhead hleftHead hrightHead hhead')
                    (ih hleftTail hrightTail htail')

theorem zipWith_left {S : α → γ → Prop} (hcombine : ∀ x y, R x y → S x (f x y))
    (h : List.Forall₂ R xs ys) : List.Forall₂ S xs (List.zipWith f xs ys) := by
  induction h with
  | nil => exact .nil
  | cons hhead _ ih => exact .cons (hcombine _ _ hhead) ih

theorem map_zipWith {g : γ → β} (hback : ∀ x y, R x y → g (f x y) = y)
    (h : List.Forall₂ R xs ys) : (List.zipWith f xs ys).map g = ys := by
  induction h with
  | nil => rfl
  | cons hhead _ ih => rw [List.zipWith_cons_cons, List.map_cons, hback _ _ hhead, ih]

end Combine

/-- What is kept of the second list comes from what is kept of the first, in order. -/
theorem map_filter_sublist {p : α → Bool} {q : β → Bool} {f : α → γ} {g : β → γ}
    (hkeep : ∀ x y, R x y → q y = true → p x = true ∧ g y = f x) (h : List.Forall₂ R xs ys) :
    ((ys.filter q).map g).Sublist ((xs.filter p).map f) := by
  induction h with
  | nil => exact List.Sublist.refl []
  | @cons x y xs ys hhead _ ih =>
      cases hq : q y with
      | true =>
          obtain ⟨hp, heq⟩ := hkeep x y hhead hq
          rw [List.filter_cons_of_pos hq, List.filter_cons_of_pos hp, List.map_cons,
            List.map_cons, heq]
          exact ih.cons_cons _
      | false =>
          rw [List.filter_cons_of_neg (by simp [hq])]
          refine ih.trans (List.Sublist.map f ?_)
          rw [List.filter_cons]
          split
          · exact List.sublist_cons_self _ _
          · exact List.Sublist.refl _

end Finiex.Lib.Pointwise
