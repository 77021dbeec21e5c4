import Mathlib.Data.List.Sort

namespace Finiex.Lib

section Sorting

variable {α : Type} (r : α → α → Prop) [DecidableRel r]

theorem orderedInsert_eq_cons {a : α} {xs : List α} (h : ∀ x ∈ xs, r a x) :
    xs.orderedInsert r a = a :: xs := by
  cases xs with
  | nil => rfl
  | cons x xs => rw [List.orderedInsert_cons_of_le r xs (h x List.mem_cons_self)]

/-- An element behind all others stays last. -/
theorem orderedInsert_concat {a b : α} (hab : r a b) (xs : List α) :
    (xs ++ [b]).orderedInsert r a = xs.orderedInsert r a ++ [b] := by
  induction xs with
  | nil => exact List.orderedInsert_cons_of_le r [] hab
  | cons x xs ih =>
      rw [List.cons_append]
      by_cases hax : r a x
      · rw [List.orderedInsert_cons_of_le r _ hax, List.orderedInsert_cons_of_le r _ hax]
        rfl
      · rw [List.orderedInsert_of_not_le r _ hax, List.orderedInsert_of_not_le r _ hax, ih]
        rfl

theorem insertionSort_concat {b : α} {xs : List α} (h : ∀ x ∈ xs, r x b) :
    (xs ++ [b]).insertionSort r = xs.insertionSort r ++ [b] := by
  induction xs with
  | nil => rfl
  | cons x xs ih =>
      rw [List.cons_append, List.insertionSort_cons, List.insertionSort_cons,
        ih fun y hy => h y (List.mem_cons_of_mem x hy),
        orderedInsert_concat r (h x List.mem_cons_self)]

variable [IsTrans α r]

theorem filter_orderedInsert (p : α → Bool) (a : α) {xs : List α} (h : xs.Pairwise r) :
    (xs.orderedInsert r a).filter p =
      if p a then (xs.filter p).orderedInsert r a else xs.filter p := by
  induction xs with
  | nil => cases hp : p a <;> simp [hp]
  | cons x xs ih =>
      obtain ⟨hx, hxs⟩ := List.pairwise_cons.mp h
      by_cases hax : r a x
      · have hall : ∀ y ∈ (x :: xs).filter p, r a y := by
          intro y hy
          rcases List.mem_cons.mp (List.mem_of_mem_filter hy) with rfl | hmem
          · exact hax
          · exact IsTrans.trans a x y hax (hx y hmem)
        rw [List.orderedInsert_cons_of_le r xs hax, orderedInsert_eq_cons r hall]
        cases hp : p a <;> simp [hp]
      · rw [List.orderedInsert_of_not_le r xs hax, List.filter_cons, ih hxs]
        cases hp : p a <;> cases hq : p x <;> simp [hq, hax]

variable [Std.Total r]

/-- A stable sort of the selected elements selects from the sorted ones. -/
theorem insertionSort_filter (p : α → Bool) (xs : List α) :
    (xs.filter p).insertionSort r = (xs.insertionSort r).filter p := by
  induction xs with
  | nil => rfl
  | cons x xs ih =>
      rw [List.insertionSort_cons,
        filter_orderedInsert r p x (List.pairwise_insertionSort r xs), ← ih]
      cases hp : p x with
      | true => rw [List.filter_cons_of_pos hp, List.insertionSort_cons, if_pos rfl]
      | false => rw [List.filter_cons_of_neg (by simp [hp]), if_neg (by simp)]

theorem pairwise_orderedInsert_stable {q : α → α → Prop} {a : α} {xs : List α}
    (hfirst : ∀ x ∈ xs, q a x) (h : xs.Pairwise fun x y => r x y ∧ (r y x → q x y)) :
    (xs.orderedInsert r a).Pairwise fun x y => r x y ∧ (r y x → q x y) := by
  induction xs with
  | nil => exact List.pairwise_singleton _ _
  | cons x xs ih =>
      obtain ⟨hx, hxs⟩ := List.pairwise_cons.mp h
      by_cases hax : r a x
      · rw [List.orderedInsert_cons_of_le r xs hax]
        refine List.pairwise_cons.mpr ⟨fun y hy => ⟨?_, fun _ => hfirst y hy⟩, h⟩
        rcases List.mem_cons.mp hy with rfl | hmem
        · exact hax
        · exact IsTrans.trans a x y hax (hx y hmem).1
      · rw [List.orderedInsert_of_not_le r xs hax]
        refine List.pairwise_cons.mpr ⟨fun y hy => ?_,
          ih (fun y hy => hfirst y (List.mem_cons_of_mem x hy)) hxs⟩
        rcases (List.mem_orderedInsert r).mp hy with rfl | hmem
        · exact ⟨(Std.Total.total (r := r) _ _).resolve_left hax, fun hxa => absurd hxa hax⟩
        · exact hx y hmem

/-- A stable sort leaves elements that sort alike in their order. -/
theorem pairwise_insertionSort_stable {q : α → α → Prop} {xs : List α} (h : xs.Pairwise q) :
    (xs.insertionSort r).Pairwise fun x y => r x y ∧ (r y x → q x y) := by
  induction xs with
  | nil => exact List.Pairwise.nil
  | cons x xs ih =>
      obtain ⟨hx, hxs⟩ := List.pairwise_cons.mp h
      rw [List.insertionSort_cons]
      refine pairwise_orderedInsert_stable r (fun y hy => ?_) (ih hxs)
      exact hx y ((List.mem_insertionSort r).mp hy)

omit [IsTrans α r] [Std.Total r] in
theorem orderedInsert_append_cons {a x : α} (hax : r a x) (ahead behind : List α) :
    (ahead ++ x :: behind).orderedInsert r a = ahead.orderedInsert r a ++ x :: behind := by
  induction ahead with
  | nil => exact List.orderedInsert_cons_of_le r behind hax
  | cons y ahead ih =>
      rw [List.cons_append]
      by_cases hay : r a y
      · rw [List.orderedInsert_cons_of_le r _ hay, List.orderedInsert_cons_of_le r _ hay]
        rfl
      · rw [List.orderedInsert_of_not_le r _ hay, List.orderedInsert_of_not_le r _ hay, ih]
        rfl

theorem mem_takeWhile_insertionSort {x y : α} {xs : List α} :
    y ∈ (xs.insertionSort r).takeWhile (fun z => ¬r x z) ↔ y ∈ xs ∧ ¬r x y := by
  have hsorted := List.pairwise_insertionSort r xs
  rw [← List.mem_insertionSort r (l := xs)]
  generalize xs.insertionSort r = sorted at hsorted ⊢
  induction sorted with
  | nil => simp
  | cons z sorted ih =>
      obtain ⟨hz, hrest⟩ := List.pairwise_cons.mp hsorted
      by_cases hxz : r x z
      · rw [List.takeWhile_cons_of_neg (by simpa using hxz)]
        refine iff_of_false List.not_mem_nil ?_
        rintro ⟨hmem, hnot⟩
        rcases List.mem_cons.mp hmem with rfl | hmem
        · exact hnot hxz
        · exact hnot (IsTrans.trans x z y hxz (hz y hmem))
      · have hinner := ih hrest
        rw [List.takeWhile_cons_of_pos (by simpa using hxz), List.mem_cons, List.mem_cons]
        constructor
        · rintro (rfl | hmem)
          · exact ⟨Or.inl rfl, hxz⟩
          · exact ⟨Or.inr (hinner.mp hmem).1, (hinner.mp hmem).2⟩
        · rintro ⟨rfl | hmem, hnot⟩
          · exact Or.inl rfl
          · exact Or.inr (hinner.mpr ⟨hmem, hnot⟩)

theorem insertionSort_merge {x : α} {ahead behind : List α}
    (hsorted : (ahead ++ x :: behind).Pairwise r) (fresh : List α) :
    ∃ ahead' behind', (ahead ++ x :: behind ++ fresh).insertionSort r = ahead' ++ x :: behind' ∧
      ∀ y, y ∈ ahead' ↔ y ∈ ahead ∨ y ∈ fresh ∧ ¬r x y := by
  induction ahead with
  | nil =>
      have hbehind := (List.pairwise_cons.mp hsorted).1
      rw [List.nil_append, List.cons_append, List.insertionSort_cons,
        List.orderedInsert_eq_take_drop]
      refine ⟨_, _, rfl, fun y => ?_⟩
      rw [mem_takeWhile_insertionSort, List.mem_append]
      constructor
      · rintro ⟨hmem | hmem, hnot⟩
        · exact absurd (hbehind y hmem) hnot
        · exact Or.inr ⟨hmem, hnot⟩
      · rintro (hmem | hmem)
        · cases hmem
        · exact ⟨Or.inr hmem.1, hmem.2⟩
  | cons a ahead ih =>
      obtain ⟨ha, hrest⟩ := List.pairwise_cons.mp hsorted
      obtain ⟨ahead', behind', hmerged, hmem⟩ := ih hrest
      have hax : r a x := ha x (List.mem_append_right _ List.mem_cons_self)
      refine ⟨ahead'.orderedInsert r a, behind', ?_, fun y => ?_⟩
      · rw [List.cons_append, List.cons_append, List.insertionSort_cons, hmerged,
          orderedInsert_append_cons r hax]
      · rw [List.mem_orderedInsert, hmem, List.mem_cons, or_assoc]

end Sorting

section Ascending

variable {α τ : Type} [LinearOrder τ] (key : α → τ)

theorem drop_below {xs : List α} (h : xs.Pairwise fun x y => key x ≤ key y) (bound : τ) :
    xs.drop (xs.countP fun x => key x < bound) = xs.filter fun x => bound ≤ key x := by
  induction xs with
  | nil => rfl
  | cons x xs ih =>
      obtain ⟨hx, hxs⟩ := List.pairwise_cons.mp h
      by_cases hlt : key x < bound
      · rw [List.countP_cons_of_pos (by simpa using hlt), List.drop_succ_cons, ih hxs,
          List.filter_cons_of_neg (by simpa using hlt)]
      · have hge := not_lt.mp hlt
        have hrest : ∀ y ∈ xs, bound ≤ key y := fun y hy => hge.trans (hx y hy)
        rw [List.countP_cons_of_neg (by simpa using hge), List.filter_cons_of_pos (by simpa using hge),
          List.countP_eq_zero.mpr (by simpa using hrest), List.drop_zero,
          List.filter_eq_self.mpr (by simpa using hrest)]

/-- The elements up to a bound come first. -/
theorem take_upTo {xs : List α} (h : xs.Pairwise fun x y => key x ≤ key y) (bound : τ) :
    xs.take (xs.countP fun x => key x ≤ bound) = xs.filter fun x => key x ≤ bound := by
  induction xs with
  | nil => rfl
  | cons x xs ih =>
      obtain ⟨hx, hxs⟩ := List.pairwise_cons.mp h
      by_cases hle : key x ≤ bound
      · rw [List.countP_cons_of_pos (by simpa using hle), List.take_succ_cons, ih hxs,
          List.filter_cons_of_pos (by simpa using hle)]
      · have hlt := not_le.mp hle
        have hrest : ∀ y ∈ xs, bound < key y := fun y hy => hlt.trans_le (hx y hy)
        rw [List.countP_cons_of_neg (by simpa using hlt), List.filter_cons_of_neg (by simpa using hlt),
          List.countP_eq_zero.mpr (by simpa using hrest), List.take_zero,
          List.filter_eq_nil_iff.mpr (by simpa using hrest)]

theorem countP_between (xs : List α) (low high : τ) :
    (xs.countP fun x => key x ≤ high) - (xs.countP fun x => key x < low) =
      xs.countP fun x => decide (low ≤ key x) && decide (key x ≤ high) := by
  rcases le_or_gt low high with hle | hlt
  · have hsum : (xs.countP fun x => key x ≤ high) = (xs.countP fun x => key x < low) +
        xs.countP fun x => decide (low ≤ key x) && decide (key x ≤ high) := by
      induction xs with
      | nil => rfl
      | cons x xs ih =>
          simp only [List.countP_cons, ih]
          rcases lt_or_ge (key x) low with hx | hx
          · simp [hx, hx.not_ge, (hx.trans_le hle).le]
            omega
          · simp [hx, hx.not_gt]
            omega
    omega
  · have hnone : (xs.countP fun x => decide (low ≤ key x) && decide (key x ≤ high)) = 0 := by
      rw [List.countP_eq_zero]
      intro x _ hx
      rw [Bool.and_eq_true, decide_eq_true_eq, decide_eq_true_eq] at hx
      exact absurd (hx.1.trans hx.2) (not_le.mpr hlt)
    have hfewer : (xs.countP fun x => key x ≤ high) ≤ xs.countP fun x => key x < low := by
      refine List.countP_mono_left fun x _ hx => ?_
      rw [decide_eq_true_eq] at hx ⊢
      exact hx.trans_lt hlt
    omega

/-- The slice between two binary searches. -/
theorem slice_between {xs : List α} (h : xs.Pairwise fun x y => key x ≤ key y) (low high : τ) :
    (xs.drop (xs.countP fun x => key x < low)).take
        ((xs.countP fun x => key x ≤ high) - xs.countP fun x => key x < low) =
      xs.filter fun x => decide (low ≤ key x) && decide (key x ≤ high) := by
  have htake := take_upTo key (h.sublist (List.filter_sublist (p := fun x => decide (low ≤ key x))))
    high
  rw [List.countP_filter, List.filter_filter] at htake
  rw [drop_below key h, countP_between]
  simp only [Bool.and_comm] at htake ⊢
  exact htake

/-- A list stably sorted by a key meets a relation exactly if the relation orders elements
with different keys like the key, and elements with one key as they stood. -/
theorem pairwise_sortedBy_iff {S : α → α → Prop} (xs : List α) :
    (xs.insertionSort fun x y => key x ≤ key y).Pairwise S ↔
      (∀ x ∈ xs, ∀ y ∈ xs, key x < key y → S x y) ∧
        xs.Pairwise fun x y => key x = key y → S x y := by
  have hmem : ∀ x, x ∈ xs.insertionSort (fun x y => key x ≤ key y) ↔ x ∈ xs :=
    fun _ => List.mem_insertionSort _
  constructor
  · intro h
    refine ⟨fun x hx y hy hlt => ?_, List.pairwise_iff_forall_sublist.mpr fun {x y} hsub hkey => ?_⟩
    · obtain ⟨earlier, later, hsplit⟩ := List.append_of_mem ((hmem x).mpr hx)
      have hsorted := List.pairwise_insertionSort (fun x y => key x ≤ key y) xs
      rw [hsplit] at h hsorted
      have hother := (hmem y).mpr hy
      rw [hsplit] at hother
      rcases List.mem_append.mp hother with hbefore | hfrom
      · have hle := (List.pairwise_append.mp hsorted).2.2 y hbefore x List.mem_cons_self
        exact absurd hlt (not_lt.mpr hle)
      · rcases List.mem_cons.mp hfrom with rfl | hafter
        · exact absurd hlt (lt_irrefl _)
        · exact (List.pairwise_cons.mp (List.pairwise_append.mp h).2.1).1 y hafter
    · have hpair := List.pair_sublist_insertionSort (r := fun x y => key x ≤ key y) hkey.le hsub
      exact (List.pairwise_pair.mp (h.sublist hpair))
  · rintro ⟨hdiffer, hsame⟩
    refine List.Pairwise.imp_of_mem ?_
      (pairwise_insertionSort_stable (fun x y => key x ≤ key y) hsame)
    rintro x y hx hy ⟨hle, hties⟩
    rcases hle.lt_or_eq with hlt | heq
    · exact hdiffer x ((hmem x).mp hx) y ((hmem y).mp hy) hlt
    · exact hties heq.ge heq

end Ascending

section Tagged

variable {α β : Type}

theorem flatMap_filter_groups (selected : α → Bool) (elements : α → List β) (groups : List α) :
    (groups.filter selected).flatMap elements =
      ((groups.flatMap fun group => (elements group).map fun x => (group, x)).filter
        fun x => selected x.1).map Prod.snd := by
  induction groups with
  | nil => rfl
  | cons group groups ih =>
      rw [List.flatMap_cons, List.filter_append, List.map_append, ← ih, List.filter_map]
      by_cases hselected : selected group = true
      · have hall : (elements group).filter ((fun x => selected x.1) ∘ fun x => (group, x)) =
            elements group := List.filter_eq_self.mpr fun _ _ => hselected
        rw [List.filter_cons_of_pos hselected, List.flatMap_cons, hall, List.map_map]
        congr 1
        exact (List.map_id _).symm
      · have hnone : (elements group).filter ((fun x => selected x.1) ∘ fun x => (group, x)) = [] :=
          List.filter_eq_nil_iff.mpr fun _ _ => hselected
        rw [List.filter_cons_of_neg hselected, hnone]
        rfl

end Tagged

section Sharing

variable {α β : Type} {p q : α → Bool} {xs : List α}

/-- If the first elements are selected, they are the first of the selection. -/
theorem take_filter_of_all {n : ℕ} (h : ∀ x ∈ xs.take n, p x = true) :
    (xs.filter p).take n = xs.take n := by
  induction xs generalizing n with
  | nil => rfl
  | cons x xs ih =>
      cases n with
      | zero => rfl
      | succ n =>
          rw [List.take_succ_cons] at h
          rw [List.filter_cons_of_pos (h x List.mem_cons_self), List.take_succ_cons,
            List.take_succ_cons, ih fun y hy => h y (List.mem_cons_of_mem _ hy)]

/-- Two selections that share their first elements select each of the first elements, if no
two elements look the same. -/
theorem all_of_take_filter_eq {f : α → β} (hdistinct : (xs.map f).Nodup)
    (hcover : ∀ x ∈ xs, p x = true ∨ q x = true) {n : ℕ}
    (h : ((xs.filter p).take n).map f = ((xs.filter q).take n).map f) :
    ∀ x ∈ xs.take n, p x = true ∧ q x = true := by
  induction xs generalizing n with
  | nil =>
      intro x hx
      rw [List.take_nil] at hx
      exact absurd hx List.not_mem_nil
  | cons x xs ih =>
      cases n with
      | zero => exact fun y hy => absurd hy List.not_mem_nil
      | succ n =>
          rw [List.map_cons, List.nodup_cons] at hdistinct
          -- an element selected by one only would have to occur again among the other's
          have hboth : p x = true ∧ q x = true := by
            cases hp : p x with
            | true =>
                cases hq : q x with
                | true => exact ⟨rfl, rfl⟩
                | false =>
                    rw [List.filter_cons_of_pos hp, List.filter_cons_of_neg (by simp [hq]),
                      List.take_succ_cons, List.map_cons] at h
                    refine absurd ?_ hdistinct.1
                    have hmem : f x ∈ ((xs.filter q).take (n + 1)).map f :=
                      h ▸ List.mem_cons_self
                    exact ((List.take_sublist _ _).trans List.filter_sublist).map f |>.subset hmem
            | false =>
                have hq : q x = true := by
                  rcases hcover x List.mem_cons_self with hx | hx
                  · rw [hp] at hx
                    cases hx
                  · exact hx
                rw [List.filter_cons_of_neg (by simp [hp]), List.filter_cons_of_pos hq,
                  List.take_succ_cons, List.map_cons] at h
                refine absurd ?_ hdistinct.1
                have hmem : f x ∈ ((xs.filter p).take (n + 1)).map f := h ▸ List.mem_cons_self
                exact ((List.take_sublist _ _).trans List.filter_sublist).map f |>.subset hmem
          rw [List.filter_cons_of_pos hboth.1, List.filter_cons_of_pos hboth.2,
            List.take_succ_cons, List.take_succ_cons, List.map_cons, List.map_cons] at h
          have hrest := ih hdistinct.2 (fun y hy => hcover y (List.mem_cons_of_mem _ hy))
            (List.cons.inj h).2
          intro y hy
          rw [List.take_succ_cons] at hy
          rcases List.mem_cons.mp hy with rfl | hmem
          · exact hboth
          · exact hrest y hmem

end Sharing

section Agreeing

variable {α : Type} {p q : α → Bool}

/-- A selection that takes as many elements as one it lies in is that one. -/
theorem agree_of_length_eq {xs : List α} (himp : ∀ x ∈ xs, p x = true → q x = true)
    (hlength : (xs.filter p).length = (xs.filter q).length) : ∀ x ∈ xs, p x = q x := by
  have hboth : (xs.filter q).filter p = xs.filter p := by
    rw [List.filter_filter]
    refine List.filter_congr fun x hx => ?_
    cases hp : p x with
    | true => rw [himp x hx hp, Bool.and_self]
    | false => rw [Bool.false_and]
  have hall : (xs.filter q).filter p = xs.filter q :=
    List.filter_sublist.eq_of_length (by rw [hboth, hlength])
  intro x hx
  refine Bool.eq_iff_iff.mpr ⟨himp x hx, fun hq => ?_⟩
  exact List.filter_eq_self.mp hall x (List.mem_filter.mpr ⟨hx, hq⟩)

end Agreeing

end Finiex.Lib
