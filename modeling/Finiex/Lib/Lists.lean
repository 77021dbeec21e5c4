import Mathlib.Data.List.Perm.Basic
import Mathlib.Data.List.Count
import Mathlib.Data.List.Nodup
import Mathlib.Data.List.Induction

namespace Finiex.Lib.Lists

section Removal

variable {α : Type} [DecidableEq α]

/-- Removing, one by one and by value, the elements that meet `p` leaves the others. -/
theorem foldl_erase_filter_perm (p : α → Bool) (xs : List α) :
    ((xs.filter p).foldl List.erase xs).Perm (xs.filter fun x => !p x) := by
  rw [← List.diff_eq_foldl, List.perm_iff_count]
  intro a
  rw [List.count_diff]
  cases hp : p a with
  | true =>
      rw [List.count_filter hp, Nat.sub_self]
      exact (List.count_eq_zero.mpr fun h => by simp [hp] at h).symm
  | false =>
      have hnone : (xs.filter p).count a = 0 :=
        List.count_eq_zero.mpr fun h => by simp [hp] at h
      have hkeep : (!p a) = true := by simp [hp]
      rw [hnone, List.count_filter (p := fun x => !p x) hkeep, Nat.sub_zero]

theorem mem_foldl_erase_filter {p : α → Bool} {xs : List α} {a : α} :
    a ∈ (xs.filter p).foldl List.erase xs ↔ a ∈ xs ∧ p a = false := by
  rw [(foldl_erase_filter_perm p xs).mem_iff]
  simp

end Removal

section History

variable {β : Type} {P : List β → β → Prop} {xs ys : List β}

/-- Every element meets `P` together with the elements before it. -/
def EachAfter (P : List β → β → Prop) (xs : List β) : Prop :=
  ∀ before x after, xs = before ++ x :: after → P before x

theorem eachAfter_nil : EachAfter P [] := by
  intro before x after h
  simp at h

theorem eachAfter_concat {x : β} : EachAfter P (xs ++ [x]) ↔ EachAfter P xs ∧ P xs x := by
  constructor
  · intro h
    refine ⟨fun before y after hsplit => ?_, h xs x [] rfl⟩
    refine h before y (after ++ [x]) ?_
    rw [hsplit, List.append_assoc, List.cons_append]
  · rintro ⟨hold, hnew⟩ before y after hsplit
    rcases List.eq_nil_or_concat after with rfl | ⟨after', z, rfl⟩
    · obtain ⟨rfl, hlast⟩ := List.append_inj' hsplit rfl
      rw [← List.singleton_inj.mp hlast]
      exact hnew
    · have hconcat : xs ++ [x] = (before ++ y :: after') ++ [z] := by
        rw [hsplit, List.concat_eq_append, List.append_assoc, List.cons_append]
      obtain ⟨rfl, -⟩ := List.append_inj' hconcat rfl
      exact hold before y after' rfl

theorem EachAfter.at_index (h : EachAfter P xs) {n : ℕ} {x : β} (hx : xs[n]? = some x) :
    P (xs.take n) x := by
  obtain ⟨hn, rfl⟩ := List.getElem?_eq_some_iff.mp hx
  refine h (xs.take n) xs[n] (xs.drop (n + 1)) ?_
  rw [← List.drop_eq_getElem_cons, List.take_append_drop]

/-- Elements that meet `P` after any history add nothing to check. -/
theorem EachAfter.append (h : EachAfter P xs) (hys : ∀ y ∈ ys, ∀ before, P before y) :
    EachAfter P (xs ++ ys) := by
  induction ys generalizing xs with
  | nil => rwa [List.append_nil]
  | cons y ys ih =>
      rw [← List.singleton_append, ← List.append_assoc]
      apply ih
      · exact eachAfter_concat.mpr ⟨h, hys y List.mem_cons_self xs⟩
      · intro z hz
        exact hys z (List.mem_cons_of_mem y hz)

end History

section Places

theorem map_mapIdx_eq {α β γ : Type} {f : ℕ → α → β} {g : β → γ} {h : α → γ}
    (heq : ∀ place x, g (f place x) = h x) (xs : List α) : (xs.mapIdx f).map g = xs.map h := by
  apply List.ext_getElem?
  intro place
  rw [List.getElem?_map, List.getElem?_mapIdx, List.getElem?_map, Option.map_map]
  exact congrArg (fun k => xs[place]?.map k) (funext (heq place))

variable {α β : Type} {f : α → Option β} {xs : List α}

/-- No element without a value stands in front of one with a value. -/
def ValuesInFront (f : α → Option β) (xs : List α) : Prop :=
  xs.Pairwise fun x y => (f y).isSome = true → (f x).isSome = true

theorem filterMap_eq_nil_of_front {x : α} (hnone : f x = none)
    (hfront : ∀ y ∈ xs, (f y).isSome = true → (f x).isSome = true) : xs.filterMap f = [] := by
  rw [List.filterMap_eq_nil_iff]
  intro y hy
  rw [← Option.not_isSome_iff_eq_none]
  intro hsome
  have hx := hfront y hy hsome
  rw [hnone] at hx
  exact Bool.false_ne_true hx

/-- The values keep their places exactly if they stand in front. -/
theorem valuesInFront_iff :
    ValuesInFront f xs ↔ ∀ (k : ℕ) (b : β), (xs.filterMap f)[k]? = some b → xs[k]?.bind f = some b := by
  unfold ValuesInFront
  induction xs with
  | nil => simp
  | cons x xs ih =>
      rw [List.pairwise_cons]
      cases hx : f x with
      | some b =>
          rw [List.filterMap_cons_some hx, ih]
          constructor
          · rintro ⟨-, hrest⟩ k c hk
            cases k with
            | zero => rw [← hk]; exact hx
            | succ k => exact hrest k c hk
          · intro h
            refine ⟨fun _ _ _ => rfl, fun k c hk => ?_⟩
            exact h (k + 1) c hk
      | none =>
          rw [List.filterMap_cons_none hx]
          constructor
          · rintro ⟨hfront, -⟩ k c hk
            rw [← hx] at hfront
            rw [filterMap_eq_nil_of_front hx hfront] at hk
            cases hk
          · intro h
            have hempty : xs.filterMap f = [] := by
              cases hfirst : xs.filterMap f with
              | nil => rfl
              | cons c cs =>
                  have hzero := h 0 c (by rw [hfirst]; rfl)
                  rw [List.getElem?_cons_zero, Option.bind_some, hx] at hzero
                  cases hzero
            have hnone : ∀ y ∈ xs, f y = none := List.filterMap_eq_nil_iff.mp hempty
            refine ⟨fun y hy hsome => ?_, List.pairwise_of_forall_mem_list fun y _ z hz hsome => ?_⟩
            · rw [hnone y hy] at hsome
              exact hsome
            · rw [hnone z hz] at hsome
              exact absurd hsome Bool.false_ne_true

theorem getElem?_foldl_set (g : ℕ → β) (places : List ℕ) (start : List β) (k : ℕ) :
    (places.foldl (fun filled i => filled.set i (g i)) start)[k]? =
      if k ∈ places then start[k]?.map fun _ => g k else start[k]? := by
  induction places generalizing start with
  | nil => rfl
  | cons i places ih =>
      rw [List.foldl_cons, ih, List.getElem?_set']
      by_cases heq : i = k
      · subst heq
        rw [if_pos rfl, if_pos List.mem_cons_self]
        split
        · cases start[i]? <;> rfl
        · rfl
      · have hmem : k ∈ i :: places ↔ k ∈ places := by
          rw [List.mem_cons, or_iff_right (Ne.symm heq)]
        rw [if_neg heq]
        simp only [hmem]

end Places

section Labels

variable {α β κ : Type} [DecidableEq κ] {f : α → List β} {key : α → κ} {label : β → κ}
  {xs : List α} {x : α}

/-- Of what elements with distinct keys contribute, the part with the key of one of them is its
own. -/
theorem filter_flatMap_of_mem (hlabel : ∀ x ∈ xs, ∀ y ∈ f x, label y = key x)
    (hkeys : (xs.map key).Nodup) (hx : x ∈ xs) :
    (xs.flatMap f).filter (fun y => label y = key x) = f x := by
  induction xs with
  | nil => exact absurd hx List.not_mem_nil
  | cons first xs ih =>
      rw [List.map_cons, List.nodup_cons] at hkeys
      rw [List.flatMap_cons, List.filter_append]
      have hrest := fun x hx => hlabel x (List.mem_cons_of_mem first hx)
      rcases List.mem_cons.mp hx with rfl | hlater
      · have hothers : (xs.flatMap f).filter (fun y => label y = key x) = [] := by
          refine List.filter_eq_nil_iff.mpr fun y hy hname => hkeys.1 ?_
          obtain ⟨other, hother, hy'⟩ := List.mem_flatMap.mp hy
          rw [← of_decide_eq_true hname, hrest other hother y hy']
          exact List.mem_map_of_mem hother
        rw [hothers, List.append_nil]
        exact List.filter_eq_self.mpr fun y hy =>
          decide_eq_true (hlabel x List.mem_cons_self y hy)
      · have hfirst : (f first).filter (fun y => label y = key x) = [] := by
          refine List.filter_eq_nil_iff.mpr fun y hy hname => hkeys.1 ?_
          rw [← hlabel first List.mem_cons_self y hy, of_decide_eq_true hname]
          exact List.mem_map_of_mem hlater
        rw [hfirst, List.nil_append]
        exact ih hrest hkeys.2 hlater

theorem countP_of_nodup {p : α → Bool} {a : α} (hnodup : (xs.map key).Nodup) (hmem : a ∈ xs) :
    xs.countP (fun x => decide (key x = key a) && p x) = if p a = true then 1 else 0 := by
  induction xs with
  | nil => cases hmem
  | cons x xs ih =>
      obtain ⟨hfresh, hrest⟩ := List.nodup_cons.mp hnodup
      rw [List.countP_cons]
      rcases List.mem_cons.mp hmem with rfl | hlater
      · have hnone : xs.countP (fun x => decide (key x = key a) && p x) = 0 := by
          rw [List.countP_eq_zero]
          intro y hy hboth
          rw [Bool.and_eq_true, decide_eq_true_eq] at hboth
          exact hfresh (hboth.1 ▸ List.mem_map_of_mem hy)
        rw [hnone]
        simp
      · have hother : key x ≠ key a := fun hsame => hfresh (hsame ▸ List.mem_map_of_mem hlater)
        rw [ih hrest hlater]
        simp [hother]

end Labels

section Joined

variable {α β : Type}

/-- The last element of joined lists is the last of the last one that is not empty. -/
theorem getLast?_flatMap_filter {f : α → List β} {p : α → Bool} {xs : List α}
    (hp : ∀ x ∈ xs, f x ≠ [] ↔ p x = true) :
    (xs.flatMap f).getLast? = (xs.filter p).getLast?.bind fun x => (f x).getLast? := by
  induction xs using List.reverseRecOn with
  | nil => rfl
  | append_singleton xs x ih =>
      rw [List.flatMap_append, List.getLast?_append, List.filter_append,
        ih fun y hy => hp y (List.mem_append_left _ hy), List.flatMap_singleton]
      have hx := hp x (List.mem_append_right _ List.mem_cons_self)
      by_cases hselected : p x = true
      · obtain ⟨last, hlast⟩ := Option.ne_none_iff_exists'.mp
          (mt List.getLast?_eq_none_iff.mp (hx.mpr hselected))
        rw [List.filter_cons_of_pos hselected, List.filter_nil, List.getLast?_concat, hlast,
          Option.some_or, Option.bind_some, hlast]
      · have hempty : f x = [] := by
          by_contra hne
          exact hselected (hx.mp hne)
        rw [List.filter_cons_of_neg hselected, List.filter_nil, List.append_nil, hempty,
          List.getLast?_nil, Option.none_or]

end Joined

end Finiex.Lib.Lists
