import Finiex.Lib.Dict
import Mathlib.Data.List.Induction

namespace Finiex.Lib

variable {κ α : Type} [DecidableEq κ]

namespace Dict

def assignAll (d : Dict κ α) (entries : List (κ × α)) : Dict κ α :=
  entries.foldl (fun d entry => d.set entry.1 entry.2) d

/-- The last assignment to a key stands. -/
theorem get?_assignAll (d : Dict κ α) (entries : List (κ × α)) (k : κ) :
    (d.assignAll entries).get? k =
      ((entries.filter fun entry => entry.1 = k).getLast?.map Prod.snd).or (d.get? k) := by
  induction entries using List.reverseRecOn with
  | nil => rfl
  | append_singleton entries entry ih =>
      rw [assignAll, List.foldl_append, List.filter_append]
      show ((d.assignAll entries).set entry.1 entry.2).get? k = _
      by_cases hkey : entry.1 = k
      · subst hkey
        rw [get?_set_self, List.filter_cons_of_pos (by simp), List.filter_nil,
          List.getLast?_concat]
        rfl
      · rw [get?_set_ne _ _ (Ne.symm hkey), ih, List.filter_cons_of_neg (by simpa using hkey),
          List.filter_nil, List.append_nil]

theorem get?_assignAll_empty (entries : List (κ × α)) (k : κ) :
    ((∅ : Dict κ α).assignAll entries).get? k =
      (entries.filter fun entry => entry.1 = k).getLast?.map Prod.snd := by
  rw [get?_assignAll, get?_empty, Option.or_none]

/-- A key that is assigned once holds its value. -/
theorem get?_assignAll_of_unique {d : Dict κ α} {entries : List (κ × α)} {k : κ} {v : α}
    (hmem : (k, v) ∈ entries) (hunique : ∀ w, (k, w) ∈ entries → w = v) :
    (d.assignAll entries).get? k = some v := by
  rw [get?_assignAll]
  cases hlast : (entries.filter fun entry => entry.1 = k).getLast? with
  | none =>
      rw [List.getLast?_eq_none_iff, List.filter_eq_nil_iff] at hlast
      exact absurd (decide_eq_true rfl) (hlast (k, v) hmem)
  | some entry =>
      have hfiltered := List.mem_filter.mp (List.mem_of_mem_getLast? hlast)
      have hkey : entry.1 = k := by simpa using hfiltered.2
      rw [Option.map_some, hunique entry.2 (hkey ▸ hfiltered.1), Option.some_or]

theorem get?_assignAll_of_absent {d : Dict κ α} {entries : List (κ × α)} {k : κ}
    (habsent : k ∉ entries.map Prod.fst) : (d.assignAll entries).get? k = d.get? k := by
  have hnone : (entries.filter fun entry => entry.1 = k) = [] := by
    rw [List.filter_eq_nil_iff]
    intro entry hentry hkey
    exact habsent (List.mem_map.mpr ⟨entry, hentry, by simpa using hkey⟩)
  rw [get?_assignAll, hnone]
  rfl

section Repeated

/-- A dictionary with the keys of another, in their order, and the images of its values. -/
theorem entries_eq_map {β : Type} {d : Dict κ α} {e : Dict κ β} {f : α → β}
    (hkeys : e.keys = d.keys) (hvalues : ∀ k v, d.get? k = some v → e.get? k = some (f v)) :
    e.entries = d.entries.map fun entry => (entry.1, f entry.2) := by
  apply List.ext_getElem?
  intro place
  have hplace := congrArg (fun keys => keys[place]?) hkeys
  simp only [keys, List.getElem?_map] at hplace
  rw [List.getElem?_map]
  cases hd : d.entries[place]? with
  | none =>
      rw [hd, Option.map_none, Option.map_eq_none_iff] at hplace
      rw [hplace]
      rfl
  | some entry =>
      rw [hd, Option.map_some, Option.map_eq_some_iff] at hplace
      obtain ⟨⟨k, w⟩, he, rfl⟩ := hplace
      have hown := hvalues entry.1 entry.2 (d.get?_eq_some_iff.mpr (List.mem_of_getElem? hd))
      have hother := e.get?_eq_some_iff.mpr (List.mem_of_getElem? he)
      rw [hother] at hown
      cases hown
      rw [he]
      rfl

theorem eq_of_keys {d e : Dict κ α} (hkeys : e.keys = d.keys)
    (hvalues : ∀ k v, d.get? k = some v → e.get? k = some v) : e = d := by
  apply ext
  exact (entries_eq_map hkeys hvalues).trans (List.map_id _)

theorem keys_set_of_mem {d : Dict κ α} {k : κ} (v : α) (h : k ∈ d.keys) :
    (d.set k v).keys = d.keys := by
  have hentries (es : List (κ × α)) (h : k ∈ es.map Prod.fst) :
      (setEntries k v es).map Prod.fst = es.map Prod.fst := by
    induction es with
    | nil => cases h
    | cons e es ih =>
        unfold setEntries
        split
        · next hkey => rw [List.map_cons, List.map_cons, hkey]
        · next hkey =>
            rw [List.map_cons, List.map_cons, ih]
            rcases List.mem_cons.mp h with heq | hlater
            · exact absurd heq.symm hkey
            · exact hlater
  exact hentries d.entries h

theorem assignAll_append (d : Dict κ α) (entries entries' : List (κ × α)) :
    d.assignAll (entries ++ entries') = (d.assignAll entries).assignAll entries' :=
  List.foldl_append

theorem keys_assignAll_of_mem {d : Dict κ α} {entries : List (κ × α)}
    (h : ∀ entry ∈ entries, entry.1 ∈ d.keys) : (d.assignAll entries).keys = d.keys := by
  induction entries generalizing d with
  | nil => rfl
  | cons entry entries ih =>
      obtain ⟨hentry, hentries⟩ := List.forall_mem_cons.mp h
      have hkeys := keys_set_of_mem entry.2 hentry
      have hrest := @ih (d.set entry.1 entry.2) fun later hlater => hkeys ▸ hentries later hlater
      exact hrest.trans hkeys

theorem mem_keys_assignAll {d : Dict κ α} {entries : List (κ × α)} {entry : κ × α}
    (h : entry ∈ entries) : entry.1 ∈ (d.assignAll entries).keys := by
  by_contra habsent
  have hnone := (get?_eq_none_iff _).mpr habsent
  rw [get?_assignAll, Option.or_eq_none_iff, Option.map_eq_none_iff,
    List.getLast?_eq_none_iff, List.filter_eq_nil_iff] at hnone
  exact hnone.1 entry h (decide_eq_true rfl)

theorem assignAll_again (d : Dict κ α) (entries : List (κ × α)) :
    (d.assignAll entries).assignAll entries = d.assignAll entries := by
  apply eq_of_keys
  · exact keys_assignAll_of_mem fun entry hentry => mem_keys_assignAll hentry
  · intro k v hv
    rw [get?_assignAll, hv]
    rw [get?_assignAll] at hv
    cases hlast : (entries.filter fun entry => entry.1 = k).getLast? with
    | none => rfl
    | some entry =>
        rw [hlast] at hv
        exact hv

theorem assignAll_twice (d : Dict κ α) (entries : List (κ × α)) :
    d.assignAll (entries ++ entries) = d.assignAll entries := by
  rw [assignAll_append, assignAll_again]

theorem assignAll_flatMap_twice {β : Type} (d : Dict κ α) (f : β → List (κ × α)) (xs : List β) :
    d.assignAll (xs.flatMap fun x => f x ++ f x) = d.assignAll (xs.flatMap f) := by
  induction xs generalizing d with
  | nil => rfl
  | cons x xs ih =>
      rw [List.flatMap_cons, List.flatMap_cons, assignAll_append, assignAll_twice, ih,
        assignAll_append]

end Repeated

section Computed

variable {β ε : Type} {f : β → Except ε α} {key : β → κ} {xs : List β}

/-- Values that can all be computed are assigned in order. -/
theorem foldlM_set_of_ok {value : β → α} (hok : ∀ x ∈ xs, f x = .ok (value x)) (d : Dict κ α) :
    xs.foldlM (fun d x => do
      let v ← f x
      return d.set (key x) v) d = .ok (d.assignAll (xs.map fun x => (key x, value x))) := by
  induction xs generalizing d with
  | nil => rfl
  | cons x xs ih =>
      rw [List.foldlM_cons, hok x List.mem_cons_self]
      exact ih (fun y hy => hok y (List.mem_cons_of_mem x hy)) _

/-- One value that cannot be computed stops the assignments. -/
theorem foldlM_set_of_error {x : β} {e : ε} (hmem : x ∈ xs) (herror : f x = .error e)
    (d : Dict κ α) :
    ∃ e', xs.foldlM (fun d x => do
      let v ← f x
      return d.set (key x) v) d = .error e' := by
  induction xs generalizing d with
  | nil => exact absurd hmem List.not_mem_nil
  | cons y xs ih =>
      rw [List.foldlM_cons]
      cases hy : f y with
      | error e' => exact ⟨e', rfl⟩
      | ok v =>
          rcases List.mem_cons.mp hmem with rfl | hlater
          · rw [herror] at hy
            cases hy
          · exact ih hlater _

theorem foldlM_set_twice (d : Dict κ α) :
    (xs ++ xs).foldlM (fun d x => do
      let v ← f x
      return d.set (key x) v) d = xs.foldlM (fun d x => do
        let v ← f x
        return d.set (key x) v) d := by
  by_cases hall : ∀ x ∈ xs, ∃ v, f x = .ok v
  · cases xs with
    | nil => rfl
    | cons y ys =>
        obtain ⟨v, -⟩ := hall y List.mem_cons_self
        have : Inhabited α := ⟨v⟩
        choose! value hvalue using hall
        rw [foldlM_set_of_ok hvalue, List.foldlM_append, foldlM_set_of_ok hvalue]
        refine (foldlM_set_of_ok hvalue _).trans ?_
        rw [assignAll_again]
  · simp only [not_forall] at hall
    obtain ⟨x, hx, herror⟩ := hall
    cases hvalue : f x with
    | ok v => exact absurd ⟨v, hvalue⟩ herror
    | error e =>
        obtain ⟨e', hstop⟩ := @foldlM_set_of_error _ _ _ _ _ f key xs x e hx hvalue d
        rw [List.foldlM_append, hstop]
        rfl

end Computed

end Dict

def groupBy (key : α → κ) (xs : List α) : Dict κ (List α) :=
  xs.foldl (fun groups x => groups.set (key x) (groups.getD (key x) [] ++ [x])) ∅

theorem get?_groupBy (key : α → κ) (xs : List α) (k : κ) :
    (groupBy key xs).get? k =
      if (xs.filter fun x => key x = k) = [] then none
      else some (xs.filter fun x => key x = k) := by
  induction xs using List.reverseRecOn with
  | nil => rfl
  | append_singleton xs x ih =>
      rw [groupBy, List.foldl_append, List.filter_append]
      show ((groupBy key xs).set (key x) ((groupBy key xs).getD (key x) [] ++ [x])).get? k = _
      by_cases hkey : key x = k
      · subst hkey
        rw [Dict.get?_set_self, List.filter_cons_of_pos (by simp), List.filter_nil,
          if_neg (by simp), Dict.getD, ih]
        split
        · next hempty =>
            rw [hempty]
            rfl
        · rfl
      · rw [Dict.get?_set_ne _ _ (Ne.symm hkey), ih, List.filter_cons_of_neg (by simpa using hkey),
          List.filter_nil, List.append_nil]

theorem mem_groupBy {key : α → κ} {xs : List α} {k : κ} {group : List α} :
    (k, group) ∈ (groupBy key xs).entries ↔
      group ≠ [] ∧ group = xs.filter fun x => key x = k := by
  rw [← Dict.get?_eq_some_iff, get?_groupBy]
  constructor
  · intro h
    split at h
    · cases h
    · next hnonempty =>
        cases h
        exact ⟨hnonempty, rfl⟩
  · rintro ⟨hnonempty, rfl⟩
    rw [if_neg hnonempty]

theorem groupBy_twice (key : α → κ) (xs : List α) :
    (groupBy key (xs ++ xs)).entries =
      (groupBy key xs).entries.map fun entry => (entry.1, entry.2 ++ entry.2) := by
  have hkeys (ys : List α) (groups : Dict κ (List α)) (h : ∀ y ∈ ys, key y ∈ groups.keys) :
      (ys.foldl (fun groups x => groups.set (key x) (groups.getD (key x) [] ++ [x])) groups).keys =
        groups.keys := by
    induction ys generalizing groups with
    | nil => rfl
    | cons y ys ih =>
        obtain ⟨hy, hys⟩ := List.forall_mem_cons.mp h
        have hset := Dict.keys_set_of_mem (groups.getD (key y) [] ++ [y]) hy
        rw [List.foldl_cons, ih _ fun later hlater => hset ▸ hys later hlater]
        exact hset
  have hgrouped : ∀ x ∈ xs, key x ∈ (groupBy key xs).keys := by
    intro x hx
    refine List.mem_map.mpr ⟨(key x, xs.filter fun y => key y = key x), ?_, rfl⟩
    exact mem_groupBy.mpr
      ⟨List.ne_nil_of_mem (List.mem_filter.mpr ⟨hx, decide_eq_true rfl⟩), rfl⟩
  apply Dict.entries_eq_map (f := fun group => group ++ group)
  · rw [groupBy, List.foldl_append]
    exact hkeys xs _ hgrouped
  · intro k group hgroup
    obtain ⟨hne, rfl⟩ := mem_groupBy.mp ((Dict.get?_eq_some_iff _).mp hgroup)
    rw [get?_groupBy, List.filter_append, if_neg (by simpa using hne)]

end Finiex.Lib
