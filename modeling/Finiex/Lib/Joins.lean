import Finiex.Lib.Dict
import Mathlib.Data.List.Induction

namespace Finiex.Lib

variable {κ α β : Type} [DecidableEq κ]

namespace Dict

/-- A dictionary of the values that have a key; the last value with a key stays. -/
def ofKeyed (key : α → Option κ) (xs : List α) : Dict κ α :=
  xs.foldl (fun d x => match key x with
    | none => d
    | some k => d.set k x) ∅

variable {key : α → Option κ} {xs : List α} {k : κ} {x : α}

theorem ofKeyed_concat (key : α → Option κ) (xs : List α) (x : α) :
    ofKeyed key (xs ++ [x]) = match key x with
      | none => ofKeyed key xs
      | some k => (ofKeyed key xs).set k x := by
  rw [ofKeyed, List.foldl_append]
  rfl

/-- While the keys are distinct, the dictionary has every value with a key under its key. -/
theorem get?_ofKeyed (hnodup : (xs.filterMap key).Nodup) :
    (ofKeyed key xs).get? k = some x ↔ x ∈ xs ∧ key x = some k := by
  induction xs using List.reverseRecOn generalizing k x with
  | nil =>
      constructor
      · intro hget
        cases hget
      · rintro ⟨hmem, -⟩
        cases hmem
  | append_singleton ys y ih =>
      rw [List.filterMap_append] at hnodup
      have hys := (List.nodup_append.mp hnodup).1
      rw [ofKeyed_concat]
      cases hkey : key y with
      | none =>
          rw [ih hys, List.mem_append, List.mem_singleton]
          constructor
          · rintro ⟨hmem, hx⟩
            exact ⟨.inl hmem, hx⟩
          · rintro ⟨hmem | rfl, hx⟩
            · exact ⟨hmem, hx⟩
            · rw [hkey] at hx
              cases hx
      | some l =>
          have hfresh : ∀ z ∈ ys, key z ≠ some l := by
            intro z hz hzl
            refine (List.nodup_append.mp hnodup).2.2 l (List.mem_filterMap.mpr ⟨z, hz, hzl⟩) l ?_ rfl
            exact List.mem_filterMap.mpr ⟨y, List.mem_singleton_self y, hkey⟩
          show ((ofKeyed key ys).set l y).get? k = some x ↔ _
          rw [List.mem_append, List.mem_singleton]
          by_cases hk : k = l
          · subst hk
            rw [get?_set_self]
            constructor
            · intro heq
              cases heq
              exact ⟨.inr rfl, hkey⟩
            · rintro ⟨hmem | rfl, hx⟩
              · exact absurd hx (hfresh x hmem)
              · rfl
          · rw [get?_set_ne _ _ hk, ih hys]
            constructor
            · rintro ⟨hmem, hx⟩
              exact ⟨.inl hmem, hx⟩
            · rintro ⟨hmem | rfl, hx⟩
              · exact ⟨hmem, hx⟩
              · rw [hkey] at hx
                exact absurd (Option.some.inj hx).symm hk

end Dict

section Outer

/-- The entries of `a` whose keys `b` lacks. -/
def onlyIn (a : Dict κ α) (b : Dict κ β) : List (κ × α) :=
  a.entries.filter fun e => !b.contains e.1

/-- The pairs of values under one key of both that `p` accepts. -/
def inBoth (p : α → β → Bool) (a : Dict κ α) (b : Dict κ β) : List (κ × α × β) :=
  a.entries.filterMap fun e => match b.get? e.1 with
    | none => none
    | some y => if p e.2 y then some (e.1, e.2, y) else none

variable {a : Dict κ α} {b : Dict κ β} {p : α → β → Bool} {k : κ} {x : α} {y : β}

theorem mem_onlyIn : (k, x) ∈ onlyIn a b ↔ a.get? k = some x ∧ b.get? k = none := by
  rw [onlyIn, List.mem_filter, Dict.get?_eq_some_iff, Dict.contains]
  simp

theorem mem_inBoth :
    (k, x, y) ∈ inBoth p a b ↔ a.get? k = some x ∧ b.get? k = some y ∧ p x y = true := by
  rw [inBoth, List.mem_filterMap, Dict.get?_eq_some_iff]
  constructor
  · rintro ⟨⟨k', x'⟩, hmem, hentry⟩
    cases hget : b.get? k' with
    | none =>
        simp only [hget] at hentry
        cases hentry
    | some y' =>
        simp only [hget] at hentry
        split at hentry
        · next hp =>
            cases hentry
            exact ⟨hmem, hget, hp⟩
        · cases hentry
  · rintro ⟨hmem, hget, hp⟩
    refine ⟨(k, x), hmem, ?_⟩
    simp only [hget, hp, if_true]

/-- The keys of a join: those that only the first has, those that only the second has, and those
of the pairs. -/
def joinKeys (p : α → β → Bool) (a : Dict κ α) (b : Dict κ β) : List κ :=
  (onlyIn a b).map Prod.fst ++ ((onlyIn b a).map Prod.fst ++ (inBoth p a b).map Prod.fst)

theorem nodup_onlyIn (a : Dict κ α) (b : Dict κ β) : ((onlyIn a b).map Prod.fst).Nodup :=
  a.nodup.sublist (List.filter_sublist.map _)

theorem nodup_inBoth (p : α → β → Bool) (a : Dict κ α) (b : Dict κ β) :
    ((inBoth p a b).map Prod.fst).Nodup := by
  refine a.nodup.sublist ?_
  rw [inBoth]
  induction a.entries with
  | nil => exact .slnil
  | cons e es ih =>
      cases hget : b.get? e.1 with
      | none =>
          simp only [List.filterMap_cons, hget]
          exact ih.cons _
      | some y =>
          by_cases hp : p e.2 y = true
          · simp only [List.filterMap_cons, hget, hp, if_true]
            exact ih.cons_cons _
          · simp only [List.filterMap_cons, hget, if_neg hp]
            exact ih.cons _

theorem nodup_joinKeys (p : α → β → Bool) (a : Dict κ α) (b : Dict κ β) :
    (joinKeys p a b).Nodup := by
  refine List.nodup_append.mpr ⟨nodup_onlyIn a b, List.nodup_append.mpr
    ⟨nodup_onlyIn b a, nodup_inBoth p a b, ?_⟩, ?_⟩
  · rintro k hk l hl rfl
    obtain ⟨⟨_, y⟩, hy, rfl⟩ := List.mem_map.mp hk
    obtain ⟨⟨k', x, z⟩, hx, hk'⟩ := List.mem_map.mp hl
    have hnone := (mem_onlyIn.mp hy).2
    have hsome := (mem_inBoth.mp hx).1
    have heq : k' = _ := hk'
    rw [heq, hnone] at hsome
    cases hsome
  · rintro k hk l hl rfl
    obtain ⟨⟨_, x⟩, hx, rfl⟩ := List.mem_map.mp hk
    obtain ⟨hsome, hnone⟩ := mem_onlyIn.mp hx
    rcases List.mem_append.mp hl with hl | hl
    · obtain ⟨⟨k', y⟩, hy, hk'⟩ := List.mem_map.mp hl
      have heq : k' = _ := hk'
      have hnone' := (mem_onlyIn.mp hy).2
      rw [heq, hsome] at hnone'
      cases hnone'
    · obtain ⟨⟨k', x', y⟩, hy, hk'⟩ := List.mem_map.mp hl
      have heq : k' = _ := hk'
      have hsome' := (mem_inBoth.mp hy).2.1
      rw [heq, hnone] at hsome'
      cases hsome'

theorem mem_joinKeys : k ∈ joinKeys p a b ↔
    (a.get? k ≠ none ∧ b.get? k = none) ∨ (b.get? k ≠ none ∧ a.get? k = none) ∨
      ∃ x y, a.get? k = some x ∧ b.get? k = some y ∧ p x y = true := by
  have honly : ∀ {γ δ : Type} (c : Dict κ γ) (d : Dict κ δ),
      k ∈ (onlyIn c d).map Prod.fst ↔ c.get? k ≠ none ∧ d.get? k = none := by
    intro γ δ c d
    rw [List.mem_map, Option.ne_none_iff_exists']
    constructor
    · rintro ⟨⟨l, z⟩, hmem, rfl⟩
      obtain ⟨hsome, hnone⟩ := mem_onlyIn.mp hmem
      exact ⟨⟨z, hsome⟩, hnone⟩
    · rintro ⟨⟨z, hsome⟩, hnone⟩
      exact ⟨(k, z), mem_onlyIn.mpr ⟨hsome, hnone⟩, rfl⟩
  rw [joinKeys, List.mem_append, List.mem_append, honly, honly, List.mem_map]
  refine or_congr_right (or_congr_right ?_)
  constructor
  · rintro ⟨⟨l, x, y⟩, hmem, rfl⟩
    exact ⟨x, y, mem_inBoth.mp hmem⟩
  · rintro ⟨x, y, h⟩
    exact ⟨(k, x, y), mem_inBoth.mpr h, rfl⟩

end Outer

/-- The keys of joined values, read off the values themselves. -/
theorem filterMap_map_eq {γ δ κ : Type} {es : List γ} {f : δ → Option κ} {g : γ → δ} {h : γ → κ}
    (hkeys : ∀ e ∈ es, f (g e) = some (h e)) : (es.map g).filterMap f = es.map h := by
  induction es with
  | nil => rfl
  | cons e es ih =>
      rw [List.map_cons, List.map_cons, List.filterMap_cons_some (hkeys e List.mem_cons_self),
        ih fun e' he' => hkeys e' (List.mem_cons_of_mem e he')]

end Finiex.Lib
